import ExportAudit.Proofs.Path.Names
import ExportAudit.Proofs.Project.Circularity
import ExportAudit.Proofs.Store.Walking

/-!
# The description that an entry names

An entry of `extends` names a file, or a file to whose name `.json` is to be
added.  Whether the addition is made depends on whether anything stands at the
name as it is written.  So a directory of that name hides the file beside it, and
the description cannot be read.
-/

namespace ExportAudit

theorem Location.text_concat_append (names : List String)
    (name ending : String) :
    Location.text ⟨names ++ [name ++ ending]⟩ =
      Location.text ⟨names ++ [name]⟩ ++ ending := by
  rw [Location.text, Location.text, Path.text, Path.text, String.append_assoc]
  exact congrArg _ (Path.joinNames_concat_append names name ending)

/-- The location with `.json` added to its name. -/
def Location.completed (location : Location) : Location :=
  location.parent.child (location.name ++ ".json")

namespace Store

variable {store : Store} {location : Location}

/-- Where a file stands at the completed name, the name itself can be asked
for. -/
theorem IsBounded.query_of_completed (bounded : store.IsBounded)
    (contained : store.contains location.completed = true) :
    store.query location.path = .ok () := by
  by_cases root : location = .root
  · rw [root]
    rfl
  obtain ⟨names⟩ := location
  obtain none | ⟨others, name, rfl⟩ := List.eq_nil_or_concat names
  · exact absurd (congrArg Location.mk none) root
  have completed : Location.completed ⟨others.concat name⟩ =
      ⟨others ++ [name ++ ".json"]⟩ := by
    simp [Location.completed, Location.parent, Location.child, Location.name,
      Location.path, Path.name]
  rw [completed] at contained
  obtain ⟨entry, listed, same⟩ := exists_entry_of_contains contained
    (by simp [Location.root])
  have short := bounded.names entry listed
  have path := bounded.path entry listed
  rw [same] at short path
  rw [List.concat_eq_append]
  apply query_of_short
  · intro other member
    obtain own | last := List.mem_append.mp member
    · exact short other (List.mem_append_left _ own)
    · have longer := short (name ++ ".json") (by simp)
      rw [List.mem_singleton.mp last]
      rw [String.utf8ByteSize_append] at longer
      omega
  · rw [Location.text_concat_append, String.utf8ByteSize_append] at path
    exact Nat.le_trans (Nat.le_add_right _ _) path

end Store

namespace Config

variable {store : Store} {seen : List Location} {location parent : Location}
  {members : List (WideText × Json)}

/-! ## Descriptions without text -/

/-- A file of valid UTF-8 stands at a location. -/
def IsReadable (store : Store) (location : Location) : Prop :=
  ∃ content text, store.file? location = some content ∧
    Text.Utf8.decode? content.bytes = some text

theorem Holds.isReadable (holds : Holds store location members) :
    IsReadable store location := by
  obtain ⟨text, written, _⟩ := holds
  unfold text? at written
  obtain ⟨decoded, read, _⟩ := Option.map_eq_some_iff.mp written
  obtain ⟨content, found, decodes⟩ := Option.bind_eq_some_iff.mp read
  exact ⟨content, decoded, found, decodes⟩

/-! What is wrong with options is no matter of reading the file. -/

theorem stringOption_ne_unreadable (options : List (WideText × Json))
    (key : String) :
    ¬ FailsBy (· = .unreadable) (stringOption options key) := by
  unfold stringOption
  split <;> simp

theorem aliasTargets_ne_unreadable (entry : WideText × Json) :
    ¬ FailsBy (· = .unreadable) (aliasTargets entry) := by
  unfold aliasTargets
  dsimp only
  split
  · split <;> simp
  · simp

theorem aliasOption_ne_unreadable (options : List (WideText × Json)) :
    ¬ FailsBy (· = .unreadable) (aliasOption options) := by
  unfold aliasOption
  split
  · simp
  · simp
  · intro failed
    rw [bind_pure_comp, failsBy_map] at failed
    obtain ⟨entry, _, failed⟩ := exists_failsBy_of_mapM failed
    exact aliasTargets_ne_unreadable entry failed
  · simp

theorem declaredOptions_ne_unreadable :
    ¬ FailsBy (· = .unreadable) (declaredOptions members) := by
  unfold declaredOptions
  intro failed
  split at failed <;>
    simp only [ok_bind, error_bind, failsBy_bind, stringOption_ne_unreadable,
      aliasOption_ne_unreadable, not_failsBy_pure, failsBy_error, reduceCtorEq,
      and_false, exists_false, or_false] at failed

theorem readMembers_unreadable {content : Content}
    (found : store.file? location = some content) {config : Location}
    (failed : readMembers location content =
      .error (.unusable config .unreadable)) : ¬ IsReadable store config := by
  unfold readMembers at failed
  split at failed
  · next undecoded =>
    cases failed
    intro readable
    obtain ⟨other, text, also, decoded⟩ := readable
    cases found.symm.trans also
    rw [undecoded] at decoded
    cases decoded
  · split at failed <;> cases failed

/-- A description without text is the only one that cannot be read. -/
theorem not_isReadable_of_readFrom (store : Store) (seen : List Location)
    (location config : Location)
    (failed : readFrom store seen location =
      .error (.unusable config .unreadable)) : ¬ IsReadable store config := by
  by_cases known : location ∈ seen
  · rw [readFrom_of_seen known] at failed
    cases failed
  cases found : store.file? location with
  | none =>
      rw [readFrom_of_missing known found] at failed
      cases failed
      intro readable
      obtain ⟨content, _, also, _⟩ := readable
      rw [found] at also
      cases also
  | some content =>
      rw [readFrom_of_found known found] at failed
      cases read : readMembers location content with
      | error error =>
          rw [read, error_bind] at failed
          cases failed
          exact readMembers_unreadable found read
      | ok members =>
          rw [read, ok_bind] at failed
          obtain ⟨_, entry, parent, _, _, _, failed⟩ | ⟨_, failed⟩ :=
            unusable_of_readBody failed
          · have := unseen_cons_lt found known
            exact not_isReadable_of_readFrom store (location :: seen) parent
              config failed
          · exact absurd ⟨_, failed, rfl⟩ declaredOptions_ne_unreadable
termination_by unseen store seen

/-- A description cannot be read just if it is not being read already and no file
of valid UTF-8 stands there. -/
theorem readFrom_unreadable_iff :
    readFrom store seen location = .error (.unusable location .unreadable) ↔
      location ∉ seen ∧ ¬ IsReadable store location := by
  constructor
  · intro failed
    refine ⟨?_, not_isReadable_of_readFrom store seen location location failed⟩
    intro known
    rw [readFrom_of_seen known] at failed
    cases failed
  · intro known
    obtain ⟨fresh, unreadable⟩ := known
    cases found : store.file? location with
    | none => exact readFrom_of_missing fresh found
    | some content =>
        have undecoded : Text.Utf8.decode? content.bytes = none := by
          rw [Option.eq_none_iff_forall_ne_some]
          intro text decoded
          exact unreadable ⟨content, text, found, decoded⟩
        rw [readFrom_of_found fresh found, readMembers, undecoded]
        rfl

/-! ## The description that is taken in -/

/-- What a description declares itself, over what it inherits. -/
def declareOver (location : Location) (members : List (WideText × Json))
    (inherited : Config) : Except ConfigError Config := do
  let declared ← (declaredOptions members).mapError
    (ConfigError.unusable location)
  let own ← (own location.parent inherited.options.baseUrl declared
    members).mapError ConfigError.stop
  return inherited.override own

/-- Reading a description takes in another between entries of `extends`: what
the other gives overrides what the entries before bring, and is overridden by
what the entries after bring and by what the description declares. -/
def TakesIn (store : Store) (seen : List Location) (location : Location)
    (members : List (WideText × Json)) (before after : List WideText)
    (parent : Location) : Prop :=
  readFrom store seen location = do
    let earlier ← before.foldlM (inheritEntry store seen location) empty
    let config ← readFrom store (location :: seen) parent
    let inherited ← after.foldlM (inheritEntry store seen location)
      (earlier.override config)
    declareOver location members inherited

theorem takesIn_of_extendedConfig? {before after : List WideText}
    {entry : WideText} (fresh : location ∉ seen)
    (holds : Holds store location members)
    (lists : extendsEntries (Json.member? "extends" members) =
      .ok (before ++ entry :: after))
    (named : extendedConfig? store location.parent entry = .ok (some parent)) :
    TakesIn store seen location members before after parent := by
  rw [TakesIn, holds.readFrom_eq fresh, readBody, lists, mapError_eq_ok.mpr rfl,
    ok_bind, List.foldlM_append, bind_assoc]
  apply bind_congr
  intro earlier
  rw [List.foldlM_cons, inheritEntry_of_named named, map_eq_pure_bind,
    bind_assoc, bind_assoc]
  apply bind_congr
  intro config
  rfl

/-- The location that an entry of `extends` is to name: the one at its name if a
file stands there, and otherwise the one with `.json` added. -/
def intended (store : Store) (named : Location) : Location :=
  if store.isFile named then named else named.completed

theorem not_isReadable_of_isDirectory
    (isDirectory : store.isDirectory location = true) :
    ¬ IsReadable store location := by
  intro readable
  obtain ⟨content, _, found, _⟩ := readable
  have isFile : store.isFile location = true := by
    rw [Store.isFile, found]
    rfl
  rw [Store.isDirectory_eq_false_of_isFile isFile] at isDirectory
  cases isDirectory

section Naming

variable {named : Location} {entry : WideText}

section

variable (bounded : store.IsBounded) (relative : entry.points.head? = some (.character '.'))
  (clean : (location.parent.path.joinWide entry).holdsNull = false)
  (place : location.parent.resolveWide entry = named)

include bounded relative clean place

theorem extendedConfig?_of_contains (contained : store.contains named = true) :
    extendedConfig? store location.parent entry = .ok (some named) := by
  rw [extendedConfig?, if_pos relative,
    locateWide_eq_ok.mpr ⟨clean, place.symm⟩, ok_bind]
  split
  · rfl
  · rw [bounded.query_of_contains contained, ok_bind]
    rfl

omit bounded in
theorem extendedConfig?_of_missing (missing : store.contains named = false)
    (bare : named.suffix ≠ ".json") :
    extendedConfig? store location.parent entry =
      store.query named.path >>= fun _ => .ok (some named.completed) := by
  rw [extendedConfig?, if_pos relative,
    locateWide_eq_ok.mpr ⟨clean, place.symm⟩, ok_bind, if_neg bare]
  apply bind_congr
  intro _
  rw [missing]
  rfl

variable (bare : store.isFile named = false → named.suffix ≠ ".json")
  (notDirectory : store.isDirectory named = false)

include bare notDirectory

/-- Where no directory stands at the name, the intended file is found. -/
theorem extendedConfig?_intended
    (isFile : store.isFile (intended store named) = true) :
    extendedConfig? store location.parent entry =
      .ok (some (intended store named)) := by
  unfold intended at isFile ⊢
  split at isFile
  · next own =>
    rw [if_pos own]
    exact extendedConfig?_of_contains bounded relative clean place
      (Store.contains_of_isFile own)
  · next other =>
    have noFile := Bool.eq_false_iff.mpr other
    have missing := Store.contains_eq_false notDirectory noFile
    have asked := bounded.query_of_completed (Store.contains_of_isFile isFile)
    rw [if_neg other,
      extendedConfig?_of_missing relative clean place missing (bare noFile),
      asked, ok_bind]

/-- Where no directory stands at the name, nothing else is taken in. -/
theorem eq_intended_of_extendedConfig?
    (found : extendedConfig? store location.parent entry = .ok (some parent)) :
    parent = intended store named := by
  cases isFile : store.isFile named with
  | true =>
      have contained := Store.contains_of_isFile isFile
      rw [extendedConfig?_of_contains bounded relative clean place contained]
        at found
      cases found
      rw [intended, if_pos isFile]
  | false =>
      have missing := Store.contains_eq_false notDirectory isFile
      rw [extendedConfig?_of_missing relative clean place missing (bare isFile)]
        at found
      obtain ⟨_, _, same⟩ := bind_eq_ok.mp found
      cases same
      rw [intended, isFile]
      rfl

end

end Naming

/-! ## A name that is completed -/

/-- A description extends another by its name without `.json`. -/
def bareEntryFiles : Store :=
  (Store.empty.write ⟨["a.json"]⟩
    (.ofText "\x7b\"extends\":\"./base\"\x7d")).write ⟨["base.json"]⟩
      (.ofText "\x7b\"files\":[]\x7d")

end Config

end ExportAudit
