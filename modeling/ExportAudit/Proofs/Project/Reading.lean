import ExportAudit.Project.Config
import ExportAudit.Proofs.Failure.Propagation
import ExportAudit.Proofs.Module.Loading

/-!
# Descriptions that stop an analysis

Most faults of a project description make it unusable, which is a finding.
`Config.Stops` lists the others, which end the whole analysis: numbers and
nestings beyond the limits of the reader, a value of `extends` that cannot be
iterated, and paths that hold the null character or a lone surrogate or are too
long.  A description is read in order, so each of them counts only if nothing
before it ends the reading.
-/

namespace ExportAudit

/-- The error ends the whole analysis. -/
def ConfigError.IsStop : ConfigError → Prop
  | .stop _ => True
  | .unusable .. => False

/-- A file that is no module. -/
def Content.ofText (text : String) : Content :=
  .ofTree (Text.Utf8.encode text) ⟨"program", true, false, 0, 0, none, []⟩

/-- Whether a value can be iterated where entries are wanted. -/
def Json.isIterable : Json → Bool
  | .string _ | .array _ | .object _ => true
  | _ => false

namespace Config

variable {store : Store} {seen : List Location} {location directory : Location}
  {members : List (WideText × Json)}

@[simp] theorem failsBy_mapError_stop {α : Type} {result : Except Failure α} :
    FailsBy ConfigError.IsStop (result.mapError ConfigError.stop) ↔
      Fails result := by
  rw [failsBy_mapError]
  rfl

@[simp] theorem not_failsBy_mapError_unusable {α : Type}
    {result : Except ConfigFault α} :
    ¬ FailsBy ConfigError.IsStop
      (result.mapError (ConfigError.unusable location)) := by
  rw [failsBy_mapError]
  rintro ⟨_, _, stop⟩
  exact stop

/-! ## The members of a description -/

/-- The text of a description, with its line breaks unified. -/
def text? (store : Store) (location : Location) : Option (List Char) :=
  ((store.file? location).bind fun content =>
    Text.Utf8.decode? content.bytes).map fun text =>
      Text.unifyLineBreaks text.toList

/-- The text of a description is the one that its file was written with. -/
theorem text?_ofText {text : String}
    (found : store.file? location = some (.ofText text)) :
    text? store location = some (Text.unifyLineBreaks text.toList) := by
  rw [text?, found, Option.bind_some, Content.ofText, Content.ofTree,
    Text.Utf8.decode?_encode, Option.map_some]

/-- The description at a location holds an object with some members. -/
def Holds (store : Store) (location : Location)
    (members : List (WideText × Json)) : Prop :=
  ∃ text, text? store location = some text ∧
    Json.Relaxed.read text = .ok (.object members)

theorem Holds.unique {others : List (WideText × Json)}
    (holds : Holds store location members)
    (also : Holds store location others) : members = others := by
  obtain ⟨text, written, read⟩ := holds
  obtain ⟨other, alsoWritten, alsoRead⟩ := also
  cases written.symm.trans alsoWritten
  cases read.symm.trans alsoRead
  rfl

theorem file?_of_text? {text : List Char}
    (written : text? store location = some text) :
    ∃ content, store.file? location = some content := by
  unfold text? at written
  cases found : store.file? location with
  | none => simp [found] at written
  | some content => exact ⟨content, rfl⟩

theorem Holds.exists_file (holds : Holds store location members) :
    ∃ content, store.file? location = some content := by
  obtain ⟨_, written, _⟩ := holds
  exact file?_of_text? written

/-- Below a description fewer are left to be read. -/
theorem Holds.unseen_lt (holds : Holds store location members)
    (fresh : location ∉ seen) :
    unseen store (location :: seen) < unseen store seen := by
  obtain ⟨_, found⟩ := holds.exists_file
  exact unseen_cons_lt found fresh

/-- The description at a location is beyond the limits of the reader. -/
def ExceedsLimits (store : Store) (location : Location) : Prop :=
  ∃ text fault, text? store location = some text ∧
    Json.Relaxed.read text = .error fault ∧ fault ≠ .malformed

theorem readMembers_eq_ok {content : Content}
    (found : store.file? location = some content) :
    readMembers location content = .ok members ↔
      Holds store location members := by
  unfold readMembers Holds text?
  rw [found, Option.bind_some]
  cases Text.Utf8.decode? content.bytes with
  | none => simp
  | some text =>
      simp only [Option.map_some, Option.some.injEq, exists_eq_left']
      cases Json.Relaxed.read (Text.unifyLineBreaks text.toList) with
      | ok value => cases value <;> simp
      | error fault => cases fault <;> simp

theorem failsBy_readMembers {content : Content}
    (found : store.file? location = some content) :
    FailsBy ConfigError.IsStop (readMembers location content) ↔
      ExceedsLimits store location := by
  unfold readMembers ExceedsLimits text?
  rw [found, Option.bind_some]
  cases Text.Utf8.decode? content.bytes with
  | none => simp [ConfigError.IsStop]
  | some text =>
      simp only [Option.map_some, Option.some.injEq, exists_and_left,
        exists_eq_left']
      cases Json.Relaxed.read (Text.unifyLineBreaks text.toList) with
      | ok value => cases value <;> simp [ConfigError.IsStop]
      | error fault => cases fault <;> simp [ConfigError.IsStop]

/-! ## Entries of `extends` -/

theorem extendsEntries_of_single {value : Json}
    (single : value.isIterable = false) :
    extendsEntries (some value) =
      if value.isTruthy then .error .extendsNotIterable else .ok [] := by
  cases value <;> first | rfl | cases single

theorem fails_extendsEntries {value : Option Json} :
    Fails (extendsEntries value) ↔
      ∃ found, value = some found ∧ found.isTruthy = true ∧
        found.isIterable = false := by
  cases value with
  | none => simp [extendsEntries]
  | some found =>
      simp only [Option.some.injEq, exists_eq_left']
      cases iterable : found.isIterable with
      | true =>
          have entries : ¬ Fails (extendsEntries (some found)) := by
            cases found <;> first | exact not_failsBy_ok _ _ | cases iterable
          simp [entries]
      | false =>
          rw [extendsEntries_of_single iterable]
          cases found.isTruthy <;> simp

theorem fails_locateWide {text : WideText} :
    Fails (directory.locateWide text) ↔
      (directory.path.joinWide text).holdsNull = true := by
  unfold Location.locateWide Path.locate
  split
  · next null => simp [null]
  · next fine => simp [fine]

theorem locateWide_eq_ok {text : WideText} {named : Location} :
    directory.locateWide text = .ok named ↔
      (directory.path.joinWide text).holdsNull = false ∧
        named = directory.resolveWide text := by
  unfold Location.locateWide Path.locate Location.resolveWide
  split
  · next null => simp [null]
  · next fine => simp [fine, eq_comm]

/-- An entry of `extends` denotes a path that cannot be asked for. -/
inductive EntryStops (store : Store) (directory : Location) (entry : WideText) :
    Prop where
  | null (relative : entry.points.head? = some (.character '.'))
      (null : (directory.path.joinWide entry).holdsNull = true)
  | tooLong (relative : entry.points.head? = some (.character '.'))
      (located : (directory.path.joinWide entry).holdsNull = false)
      (bare : (directory.resolveWide entry).suffix ≠ ".json")
      (long : Fails (store.query (directory.resolveWide entry).path))

theorem fails_extendedConfig? {entry : WideText} :
    Fails (extendedConfig? store directory entry) ↔
      EntryStops store directory entry := by
  unfold extendedConfig?
  by_cases relative : entry.points.head? = some (.character '.')
  · rw [if_pos relative]
    refine failsBy_bind.trans ?_
    rw [← Fails, fails_locateWide]
    constructor
    · rintro (null | ⟨named, located, failed⟩)
      · exact .null relative null
      · rw [locateWide_eq_ok] at located
        obtain ⟨located, rfl⟩ := located
        by_cases bare : (directory.resolveWide entry).suffix = ".json"
        · rw [if_pos bare] at failed
          exact absurd failed (not_failsBy_pure _ _)
        · rw [if_neg bare] at failed
          rcases failsBy_bind.mp failed with long | ⟨_, _, failed⟩
          · exact .tooLong relative located bare long
          · split at failed <;> exact absurd failed (not_failsBy_pure _ _)
    · intro stops
      cases stops with
      | null _ null => exact .inl null
      | tooLong _ located bare long =>
          refine .inr ⟨_, locateWide_eq_ok.mpr ⟨located, rfl⟩, ?_⟩
          rw [if_neg bare]
          exact failsBy_bind.mpr (.inl long)
  · rw [if_neg relative]
    simp only [not_failsBy_ok, false_iff]
    intro stops
    cases stops with
    | null written => exact relative written
    | tooLong written => exact relative written

/-! ## Paths that a description declares -/

/-- The texts that a description declares as paths of its own. -/
def ownTexts (declared : DeclaredOptions) (members : List (WideText × Json)) :
    List WideText :=
  declared.outDir.toList ++ declared.baseUrl.toList ++
    (stringList? members "files").getD []

theorem fails_ownOptions {inheritedBase : Option Location}
    {declared : DeclaredOptions} :
    Fails (ownOptions directory inheritedBase declared) ↔
      ∃ text ∈ declared.outDir.toList ++ declared.baseUrl.toList,
        (directory.path.joinWide text).holdsNull = true := by
  unfold ownOptions
  rw [fails_bind_iff_or fun _ => fails_bind_iff_or fun _ =>
    iff_of_false (not_failsBy_pure _ _) not_false]
  simp only [fails_optionMapM, fails_locateWide, or_false, List.mem_append,
    Option.mem_toList, or_and_right, exists_or]

theorem fails_own {inheritedBase : Option Location}
    {declared : DeclaredOptions} :
    Fails (own directory inheritedBase declared members) ↔
      ∃ text ∈ ownTexts declared members,
        (directory.path.joinWide text).holdsNull = true := by
  unfold own ownTexts
  rw [fails_bind_iff_or fun _ => fails_bind_iff_or fun _ =>
    iff_of_false (not_failsBy_pure _ _) not_false]
  simp only [fails_ownOptions, fails_optionMapM, fails_mapM, fails_locateWide,
    or_false]
  cases stringList? members "files" with
  | none => simp
  | some files => simp [or_and_right, exists_or, or_assoc]

/-! ## Reading -/

/-- Read one entry of `extends` of a description. -/
def readEntry (store : Store) (seen : List Location) (location : Location)
    (entry : WideText) : Except ConfigError (Option Config) := do
  let extended ← (extendedConfig? store location.parent entry).mapError
    ConfigError.stop
  match extended with
  | none => return none
  | some parent => some <$> readFrom store (location :: seen) parent

/-- Override what is inherited so far by what one more entry of `extends`
gives. -/
def inheritEntry (store : Store) (seen : List Location) (location : Location)
    (inherited : Config) (entry : WideText) : Except ConfigError Config :=
  (fun config => (config.map inherited.override).getD inherited) <$>
    readEntry store seen location entry

/-- What a description declares and inherits when it holds some members. -/
def readBody (store : Store) (seen : List Location) (location : Location)
    (members : List (WideText × Json)) : Except ConfigError Config := do
  let entries ←
    (extendsEntries (Json.member? "extends" members)).mapError
      ConfigError.stop
  let inherited ← entries.foldlM (inheritEntry store seen location) empty
  let declared ← (declaredOptions members).mapError
    (ConfigError.unusable location)
  let own ← (own location.parent inherited.options.baseUrl declared
    members).mapError ConfigError.stop
  return inherited.override own

theorem readFrom_of_seen (known : location ∈ seen) :
    readFrom store seen location = .error (.unusable location .circular) := by
  unfold readFrom
  rw [dif_pos known]

theorem readFrom_of_missing (fresh : location ∉ seen)
    (missing : store.file? location = none) :
    readFrom store seen location = .error (.unusable location .unreadable) := by
  unfold readFrom
  rw [dif_neg fresh]
  split
  · rfl
  · next found => simp [missing] at found

theorem readFrom_of_found {content : Content} (fresh : location ∉ seen)
    (found : store.file? location = some content) :
    readFrom store seen location =
      readMembers location content >>= readBody store seen location := by
  rw [readFrom]
  rw [dif_neg fresh]
  split
  · next missing => simp [missing] at found
  · next other known =>
    rw [found] at known
    cases known
    apply bind_congr
    intro members
    unfold readBody
    apply bind_congr
    intro entries
    congr 1
    congr 1
    funext inherited entry
    unfold inheritEntry readEntry
    rw [map_bind]
    apply bind_congr
    intro extended
    cases extended with
    | none => rfl
    | some parent =>
        simp only [bind_pure_comp, Functor.map_map]
        rfl

/-- A description that holds members is read by its body. -/
theorem Holds.readFrom_eq (holds : Holds store location members)
    (fresh : location ∉ seen) :
    readFrom store seen location = readBody store seen location members := by
  obtain ⟨_, found⟩ := holds.exists_file
  rw [readFrom_of_found fresh found, (readMembers_eq_ok found).mpr holds,
    ok_bind]

/-- Reading an entry of `extends` goes through. -/
def ReadsEntry (store : Store) (seen : List Location) (location : Location)
    (entry : WideText) : Prop :=
  ∃ config, readEntry store seen location entry = .ok config

/-- Reading the description at a location stops the analysis; `seen` holds the
descriptions from which it was reached. -/
inductive Stops (store : Store) : List Location → Location → Prop where
  | limits {seen : List Location} {location : Location}
      (fresh : location ∉ seen) (beyond : ExceedsLimits store location) :
      Stops store seen location
  | notIterable {seen : List Location} {location : Location}
      {members : List (WideText × Json)} {value : Json}
      (fresh : location ∉ seen) (holds : Holds store location members)
      (declared : Json.member? "extends" members = some value)
      (wanted : value.isTruthy = true) (single : value.isIterable = false) :
      Stops store seen location
  | entry {seen : List Location} {location : Location}
      {members : List (WideText × Json)} {before after : List WideText}
      {entry : WideText}
      (fresh : location ∉ seen) (holds : Holds store location members)
      (lists : extendsEntries (Json.member? "extends" members) =
        .ok (before ++ entry :: after))
      (passed : ∀ earlier ∈ before, ReadsEntry store seen location earlier)
      (stops : EntryStops store location.parent entry) :
      Stops store seen location
  | extended {seen : List Location} {location parent : Location}
      {members : List (WideText × Json)} {before after : List WideText}
      {entry : WideText}
      (fresh : location ∉ seen) (holds : Holds store location members)
      (lists : extendsEntries (Json.member? "extends" members) =
        .ok (before ++ entry :: after))
      (passed : ∀ earlier ∈ before, ReadsEntry store seen location earlier)
      (names : extendedConfig? store location.parent entry = .ok (some parent))
      (stops : Stops store (location :: seen) parent) :
      Stops store seen location
  | own {seen : List Location} {location : Location}
      {members : List (WideText × Json)} {entries : List WideText}
      {declared : DeclaredOptions} {text : WideText}
      (fresh : location ∉ seen) (holds : Holds store location members)
      (lists : extendsEntries (Json.member? "extends" members) =
        .ok entries)
      (passed : ∀ entry ∈ entries, ReadsEntry store seen location entry)
      (valid : declaredOptions members = .ok declared)
      (listed : text ∈ ownTexts declared members)
      (null : (location.parent.path.joinWide text).holdsNull = true) :
      Stops store seen location

/-- A description stops the analysis by one of its entries. -/
def StopsAtEntry (store : Store) (seen : List Location) (location : Location)
    (entry : WideText) : Prop :=
  EntryStops store location.parent entry ∨
    ∃ parent, extendedConfig? store location.parent entry = .ok (some parent) ∧
      FailsBy ConfigError.IsStop (readFrom store (location :: seen) parent)

theorem failsBy_readEntry {entry : WideText} :
    FailsBy ConfigError.IsStop (readEntry store seen location entry) ↔
      StopsAtEntry store seen location entry := by
  unfold readEntry StopsAtEntry
  rw [failsBy_bind, failsBy_mapError_stop, fails_extendedConfig?]
  apply or_congr_right
  constructor
  · rintro ⟨extended, named, failed⟩
    rw [mapError_eq_ok] at named
    cases extended with
    | none => exact absurd failed (not_failsBy_pure _ _)
    | some parent => exact ⟨parent, named, failsBy_map.mp failed⟩
  · rintro ⟨parent, named, failed⟩
    exact ⟨some parent, mapError_eq_ok.mpr named, failsBy_map.mpr failed⟩

theorem readsEntry_iff (inherited : Config) (entry : WideText) :
    (∃ next, inheritEntry store seen location inherited entry = .ok next) ↔
      ReadsEntry store seen location entry := by
  unfold ReadsEntry inheritEntry
  rw [exists_ok_iff, exists_ok_iff]
  exact not_congr failsBy_map

theorem failsBy_inheritEntry (inherited : Config) (entry : WideText) :
    FailsBy ConfigError.IsStop
        (inheritEntry store seen location inherited entry) ↔
      StopsAtEntry store seen location entry :=
  failsBy_map.trans failsBy_readEntry

/-- What stops the analysis once the options of a description are read. -/
theorem failsBy_declared {inherited : Config} :
    FailsBy ConfigError.IsStop (do
      let declared ← (declaredOptions members).mapError
        (ConfigError.unusable location)
      let own ← (own location.parent inherited.options.baseUrl declared
        members).mapError ConfigError.stop
      return inherited.override own) ↔
      ∃ declared, declaredOptions members = .ok declared ∧
        ∃ text ∈ ownTexts declared members,
          (location.parent.path.joinWide text).holdsNull = true := by
  rw [failsBy_bind]
  simp only [not_failsBy_mapError_unusable, false_or]
  apply exists_congr
  intro declared
  rw [mapError_eq_ok, bind_pure_comp, failsBy_map, failsBy_mapError_stop,
    fails_own]

/-- What stops the analysis in the body of a description. -/
theorem failsBy_readBody :
    FailsBy ConfigError.IsStop (readBody store seen location members) ↔
      (∃ value, Json.member? "extends" members = some value ∧
        value.isTruthy = true ∧ value.isIterable = false) ∨
      ∃ entries, extendsEntries (Json.member? "extends" members) =
          .ok entries ∧
        ((∃ before entry after, entries = before ++ entry :: after ∧
            (∀ earlier ∈ before, ReadsEntry store seen location earlier) ∧
            StopsAtEntry store seen location entry) ∨
          (∀ entry ∈ entries, ReadsEntry store seen location entry) ∧
            ∃ declared, declaredOptions members = .ok declared ∧
              ∃ text ∈ ownTexts declared members,
                (location.parent.path.joinWide text).holdsNull = true) := by
  unfold readBody
  rw [failsBy_bind, failsBy_mapError_stop, fails_extendsEntries]
  apply or_congr_right
  apply exists_congr
  intro entries
  rw [mapError_eq_ok]
  apply and_congr_right
  intro _
  rw [failsBy_bind, failsBy_foldlM readsEntry_iff failsBy_inheritEntry]
  apply or_congr_right
  simp only [failsBy_declared]
  rw [exists_and_right, exists_foldlM_eq_ok readsEntry_iff]

theorem stops_of_failsBy (store : Store) (seen : List Location)
    (location : Location)
    (failed : FailsBy ConfigError.IsStop (readFrom store seen location)) :
    Stops store seen location := by
  by_cases known : location ∈ seen
  · rw [readFrom_of_seen known, failsBy_error] at failed
    exact failed.elim
  · cases found : store.file? location with
    | none =>
        rw [readFrom_of_missing known found, failsBy_error] at failed
        exact failed.elim
    | some content =>
        rw [readFrom_of_found known found, failsBy_bind,
          failsBy_readMembers found] at failed
        simp only [readMembers_eq_ok found] at failed
        rcases failed with beyond | ⟨members, holds, failed⟩
        · exact .limits known beyond
        · rw [failsBy_readBody] at failed
          rcases failed with ⟨value, declared, wanted, single⟩ |
            ⟨_, lists, ⟨before, entry, after, rfl, passed, stops⟩ |
              ⟨passed, declared, valid, text, listed, null⟩⟩
          · exact .notIterable known holds declared wanted single
          · rcases stops with stops | ⟨parent, names, stops⟩
            · exact .entry known holds lists passed stops
            · have := holds.unseen_lt known
              exact .extended known holds lists passed names
                (stops_of_failsBy store (location :: seen) parent stops)
          · exact .own known holds lists passed valid listed null
termination_by unseen store seen

/-- Reading a description stops the analysis for no other reasons than those
listed. -/
theorem failsBy_readFrom :
    FailsBy ConfigError.IsStop (readFrom store seen location) ↔
      Stops store seen location := by
  constructor
  · exact stops_of_failsBy store seen location
  · intro stops
    induction stops with
    | limits fresh beyond =>
        have written := beyond
        obtain ⟨text, fault, written, _⟩ := written
        obtain ⟨content, found⟩ := file?_of_text? written
        rw [readFrom_of_found fresh found, failsBy_bind]
        exact .inl ((failsBy_readMembers found).mpr beyond)
    | notIterable fresh holds declared wanted single =>
        rw [holds.readFrom_eq fresh]
        exact failsBy_readBody.mpr (.inl ⟨_, declared, wanted, single⟩)
    | entry fresh holds lists passed stops =>
        rw [holds.readFrom_eq fresh]
        exact failsBy_readBody.mpr (.inr ⟨_, lists,
          .inl ⟨_, _, _, rfl, passed, .inl stops⟩⟩)
    | extended fresh holds lists passed names _ ih =>
        rw [holds.readFrom_eq fresh]
        exact failsBy_readBody.mpr (.inr ⟨_, lists,
          .inl ⟨_, _, _, rfl, passed, .inr ⟨_, names, ih⟩⟩⟩)
    | own fresh holds lists passed valid listed null =>
        rw [holds.readFrom_eq fresh]
        exact failsBy_readBody.mpr (.inr ⟨_, lists,
          .inr ⟨passed, _, valid, _, listed, null⟩⟩)

end Config

end ExportAudit
