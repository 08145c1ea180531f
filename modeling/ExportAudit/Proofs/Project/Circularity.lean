import Mathlib.Data.List.Chain
import ExportAudit.Proofs.Project.Inheritance

/-!
# Descriptions that extend themselves

A description may be reached from itself along entries of `extends`.  Reading
ends all the same, since each nested reading has one more description that it
was reached from.

`read_circular` says that among well typed descriptions a way that comes back to
a description on it is the only reason for finding one unusable, and that reading
never goes through where there is such a way.  Two ways to one description are no
fault.
-/

namespace ExportAudit.Config

open Relation (ReflTransGen)

variable {store : Store} {seen : List Location} {location : Location}
  {members : List (WideText × Json)}

/-! ## Ways along `extends` -/

/-- A way along `extends` leads from a location to a description that the way
has already passed. -/
def ComesBack (store : Store) (location config : Location) : Prop :=
  ∃ way, way.head? = some location ∧ config ∈ way ∧
    (way ++ [config]).IsChain (Extends store)

/-- Everything that is reached from a location along `extends`, itself
included, has a property. -/
def AllReached (store : Store) (location : Location)
    (property : Location → Prop) : Prop :=
  ∀ reached, ReflTransGen (Extends store) location reached → property reached

/-- A description can be read and is an object with options and entries of
`extends` of the right types. -/
def IsWellTyped (store : Store) (location : Location) : Prop :=
  ∃ members entries declared, Holds store location members ∧
    extendsEntries (Json.member? "extends" members) = .ok entries ∧
    declaredOptions members = .ok declared

/-- No path that a description declares holds the null character or a lone
surrogate that stands for no byte. -/
def IsLocatedAt (store : Store) (location : Location) : Prop :=
  ∀ members declared, Holds store location members →
    declaredOptions members = .ok declared →
    (⟨location, members, declared⟩ : Declaration).IsLocated

theorem AllReached.here {property : Location → Prop}
    (all : AllReached store location property) : property location :=
  all location .refl

theorem AllReached.parent {property : Location → Prop} {parent : Location}
    (all : AllReached store location property)
    (direct : Extends store location parent) :
    AllReached store parent property :=
  fun reached way => all reached (ReflTransGen.head direct way)

theorem AllReached.imp {property weaker : Location → Prop}
    (all : AllReached store location property)
    (weaken : ∀ reached, property reached → weaker reached) :
    AllReached store location weaker :=
  fun reached way => weaken reached (all reached way)

/-- Where the descriptions of a list only extend others of the list, all that is
reached from one of them is in the list. -/
theorem allReached_of_closed {known : List Location} (listed : location ∈ known)
    (closed : ∀ child ∈ known, ∀ parent, Extends store child parent →
      parent ∈ known) : AllReached store location (· ∈ known) := by
  intro reached way
  induction way with
  | refl => exact listed
  | tail _ direct ih => exact closed _ ih _ direct

/-- What one description extends is told by what it holds. -/
theorem Holds.extends_iff {entries : List WideText} {parent : Location}
    (holds : Holds store location members)
    (lists : extendsEntries (Json.member? "extends" members) =
      .ok entries) :
    Extends store location parent ↔
      ∃ entry ∈ entries,
        extendedConfig? store location.parent entry = .ok (some parent) := by
  constructor
  · rintro ⟨others, named, also, alsoLists, found⟩
    cases also.unique holds
    cases alsoLists.symm.trans lists
    exact found
  · intro found
    exact ⟨members, entries, holds, lists, found⟩

/-! ## Reading ends -/

/-- Reading one description starts the reading of another, after the entries
before the one that names it.  Each is given with the descriptions that it was
reached from. -/
def StartsReading (store : Store)
    (caller callee : List Location × Location) : Prop :=
  caller.2 ∉ caller.1 ∧ callee.1 = caller.2 :: caller.1 ∧
    ∃ members before entry after, Holds store caller.2 members ∧
      extendsEntries (Json.member? "extends" members) =
        .ok (before ++ entry :: after) ∧
      (∀ earlier ∈ before, ReadsEntry store caller.1 caller.2 earlier) ∧
      extendedConfig? store caller.2.parent entry = .ok (some callee.2)

theorem StartsReading.unseen_lt {caller callee : List Location × Location}
    (starts : StartsReading store caller callee) :
    unseen store callee.1 < unseen store caller.1 := by
  obtain ⟨fresh, known, members, _, _, _, holds, _⟩ := starts
  rw [known]
  exact holds.unseen_lt fresh

theorem length_le_unseen {call : List Location × Location}
    {calls : List (List Location × Location)}
    (nested : (call :: calls).IsChain (StartsReading store)) :
    calls.length ≤ unseen store call.1 := by
  induction calls generalizing call with
  | nil => exact Nat.zero_le _
  | cons next rest ih =>
      rw [List.isChain_cons_cons] at nested
      have deeper := ih nested.2
      have smaller := nested.1.unseen_lt
      rw [List.length_cons]
      omega

/-! ## Unusable descriptions lie on a way that comes back -/

theorem IsValid.isWellTyped (valid : IsValid store location) :
    IsWellTyped store location := by
  obtain ⟨members, entries, declared, holds, lists, options, _⟩ := valid
  exact ⟨members, entries, declared, holds, lists, options⟩

/-- The body of a description makes one unusable that it extends, or the
description itself by its options. -/
theorem unusable_of_readBody {config : Location} {fault : ConfigFault}
    (failed : readBody store seen location members =
      .error (.unusable config fault)) :
    (∃ entries entry parent,
      extendsEntries (Json.member? "extends" members) = .ok entries ∧
        entry ∈ entries ∧
        extendedConfig? store location.parent entry = .ok (some parent) ∧
        readFrom store (location :: seen) parent =
          .error (.unusable config fault)) ∨
      config = location ∧ declaredOptions members = .error fault := by
  let fatal (error : ConfigError) := error = .unusable config fault
  have fails : FailsBy fatal (readBody store seen location members) :=
    ⟨_, failed, rfl⟩
  rw [readBody, failsBy_bind, failsBy_mapError] at fails
  rcases fails with ⟨_, _, stop⟩ | ⟨entries, lists, fails⟩
  · cases stop
  rw [failsBy_bind,
    failsBy_foldlM readsEntry_iff fun _ _ => failsBy_map] at fails
  rcases fails with ⟨before, entry, after, rfl, _, fails⟩ |
    ⟨inherited, _, fails⟩
  · rw [readEntry, failsBy_bind, failsBy_mapError] at fails
    rcases fails with ⟨_, _, stop⟩ | ⟨extended, named, fails⟩
    · cases stop
    · have named := mapError_eq_ok.mp named
      cases extended with
      | none => exact absurd fails (not_failsBy_pure _ _)
      | some parent =>
          obtain ⟨_, failed, rfl⟩ := failsBy_map.mp fails
          exact .inl ⟨_, entry, parent, mapError_eq_ok.mp lists, by simp, named,
            failed⟩
  · rw [failsBy_bind, failsBy_mapError] at fails
    rcases fails with ⟨_, options, same⟩ | ⟨_, _, fails⟩
    · cases same
      exact .inr ⟨rfl, options⟩
    · -- A path that cannot be located stops the analysis instead.
      rw [failsBy_bind, failsBy_mapError] at fails
      rcases fails with ⟨_, _, stop⟩ | ⟨_, _, fails⟩
      · cases stop
      · exact absurd fails (not_failsBy_pure _ _)

/-- A well typed description that is not among those seen is only unusable by one
that it extends. -/
theorem exists_unusable_parent {config : Location} {fault : ConfigFault}
    (typed : IsWellTyped store location) (fresh : location ∉ seen)
    (failed : readFrom store seen location =
      .error (.unusable config fault)) :
    ∃ parent, Extends store location parent ∧
      readFrom store (location :: seen) parent =
        .error (.unusable config fault) := by
  obtain ⟨members, _, declared, holds, _, options⟩ := typed
  rw [holds.readFrom_eq fresh] at failed
  obtain ⟨entries, entry, parent, lists, member, named, failed⟩ |
    ⟨_, untyped⟩ := unusable_of_readBody failed
  · exact ⟨parent, (holds.extends_iff lists).mpr ⟨entry, member, named⟩, failed⟩
  · rw [options] at untyped
    cases untyped

/-- The only fault among well typed descriptions is one that is reached from
itself.  The descriptions seen are a way from `start`. -/
theorem comesBack_of_unusable (store : Store) (seen : List Location)
    (location start config : Location) (fault : ConfigFault)
    (typed : AllReached store location (IsWellTyped store))
    (trail : (location :: seen).reverse.IsChain (Extends store))
    (first : (location :: seen).reverse.head? = some start)
    (failed : readFrom store seen location = .error (.unusable config fault)) :
    fault = .circular ∧ ComesBack store start config := by
  by_cases known : location ∈ seen
  · rw [readFrom_of_seen known] at failed
    cases failed
    rw [List.reverse_cons] at trail first
    have nonempty : seen.reverse ≠ [] :=
      List.ne_nil_of_mem (List.mem_reverse.mpr known)
    rw [List.head?_append_of_ne_nil _ nonempty] at first
    exact ⟨rfl, seen.reverse, first, List.mem_reverse.mpr known, trail⟩
  · obtain ⟨parent, direct, failed⟩ :=
      exists_unusable_parent typed.here known failed
    have smaller : unseen store (location :: seen) < unseen store seen := by
      obtain ⟨_, _, holds, _⟩ := direct
      exact holds.unseen_lt known
    refine comesBack_of_unusable store (location :: seen) parent start config
      fault (typed.parent direct) ?_ ?_ failed
    · rw [List.reverse_cons, List.isChain_append]
      refine ⟨trail, List.isChain_singleton _, ?_⟩
      intro last isLast next isNext
      rw [List.reverse_cons, List.getLast?_concat] at isLast
      cases isLast
      cases isNext
      exact direct
    · rw [List.reverse_cons, List.head?_append, first, Option.some_or]
termination_by unseen store seen

/-! ## Reading goes through only where no way comes back -/

theorem not_mem_of_readFrom {config : Config}
    (given : readFrom store seen location = .ok config) : location ∉ seen := by
  intro known
  rw [readFrom_of_seen known] at given
  cases given

/-- What a description extends is read where the description is. -/
theorem exists_readFrom_parent {config : Config} {parent : Location}
    (given : readFrom store seen location = .ok config)
    (direct : Extends store location parent) :
    ∃ inherited,
      readFrom store (location :: seen) parent = .ok inherited := by
  have fresh := not_mem_of_readFrom given
  obtain ⟨members, entries, holds, lists, entry, member, named⟩ := direct
  rw [holds.readFrom_eq fresh, readBody, lists, mapError_eq_ok.mpr rfl,
    ok_bind, bind_eq_ok] at given
  obtain ⟨inherited, folded, _⟩ := given
  have passed := (exists_foldlM_eq_ok readsEntry_iff).mp ⟨_, folded⟩
  obtain ⟨found, read⟩ := passed entry member
  rw [readEntry, named, mapError_eq_ok.mpr rfl, ok_bind] at read
  obtain ⟨config, read, _⟩ := map_eq_ok.mp read
  exact ⟨config, read⟩

/-- A way from a description that is read passes each description once, and
none of those from which it was reached. -/
theorem nodup_of_isChain {way : List Location} {config : Config}
    (given : readFrom store seen location = .ok config)
    (chain : (location :: way).IsChain (Extends store)) :
    (location :: way).Nodup ∧ ∀ passed ∈ location :: way, passed ∉ seen := by
  induction way generalizing location seen config with
  | nil => simpa using not_mem_of_readFrom given
  | cons next rest ih =>
      have fresh := not_mem_of_readFrom given
      rw [List.isChain_cons_cons] at chain
      obtain ⟨inherited, read⟩ := exists_readFrom_parent given chain.1
      obtain ⟨once, apart⟩ := ih read chain.2
      constructor
      · refine List.nodup_cons.mpr ⟨?_, once⟩
        exact fun again => apart location again (List.mem_cons_self ..)
      · rw [List.forall_mem_cons]
        refine ⟨fresh, fun passed member known => ?_⟩
        exact apart passed member (List.mem_cons_of_mem _ known)

theorem ComesBack.read_ne_ok {back : Location}
    (comes : ComesBack store location back) (config : Config) :
    read store location ≠ .ok config := by
  intro given
  obtain ⟨way, first, passed, chain⟩ := comes
  obtain ⟨rest, rfl⟩ := List.head?_eq_some_iff.mp first
  have once := (nodup_of_isChain given chain).1
  exact (List.nodup_append.mp once).2.2 _ passed _ (List.mem_singleton_self _) rfl

/-! ## What else ends reading -/

/-- Among valid descriptions only a path with the null character or a lone
surrogate stops the analysis. -/
theorem Stops.exists_not_isLocatedAt (stops : Stops store seen location)
    (valid : AllReached store location (IsValid store)) :
    ∃ reached, ReflTransGen (Extends store) location reached ∧
      ¬ IsLocatedAt store reached := by
  induction stops with
  | limits fresh beyond =>
      obtain ⟨members, _, _, ⟨text, written, read⟩, _⟩ := valid.here
      obtain ⟨other, fault, alsoWritten, failed, _⟩ := beyond
      cases written.symm.trans alsoWritten
      cases read.symm.trans failed
  | notIterable fresh holds declared wanted single =>
      obtain ⟨_, entries, _, also, lists, _⟩ := valid.here
      cases also.unique holds
      have failed := fails_extendsEntries.mpr ⟨_, declared, wanted, single⟩
      rw [lists] at failed
      exact absurd failed (not_failsBy_ok _ _)
  | @entry _ _ _ _ _ entry fresh holds lists passed stops =>
      obtain ⟨_, entries, _, also, listsToo, _, followed⟩ := valid.here
      cases also.unique holds
      cases listsToo.symm.trans lists
      obtain ⟨extended, named⟩ := followed entry (by simp)
      have failed := fails_extendedConfig?.mpr stops
      rw [named] at failed
      exact absurd failed (not_failsBy_ok _ _)
  | extended fresh holds lists passed names stops ih =>
      have direct := (holds.extends_iff lists).mpr ⟨_, by simp, names⟩
      obtain ⟨reached, way, null⟩ := ih (valid.parent direct)
      exact ⟨reached, ReflTransGen.head direct way, null⟩
  | @own _ location _ _ _ _ fresh holds lists passed options listed null =>
      refine ⟨location, .refl, fun located => ?_⟩
      have clean := located _ _ holds options _ listed
      exact Bool.false_ne_true (clean.symm.trans null)

/-- What a description holds that only extends others. -/
def extending (entries : List WideText) : List (WideText × Json) :=
  [("extends", .array (entries.map .string))]

/-- A description only extends others, and those are at some locations. -/
def Links (store : Store) (location : Location) (parents : List Location) :
    Prop :=
  ∃ entries, Holds store location (extending entries) ∧
    entries.map (extendedConfig? store location.parent) =
      parents.map fun parent => .ok (some parent)

theorem extendsEntries_extending (entries : List WideText) :
    extendsEntries (Json.member? "extends" (extending entries)) =
      .ok entries := by
  have found : Json.member? "extends" (extending entries) =
      some (.array (entries.map .string)) := rfl
  rw [found, extendsEntries, List.filterMap_map]
  exact congrArg Except.ok List.filterMap_some

theorem Links.extends_iff {parents : List Location} {parent : Location}
    (links : Links store location parents) :
    Extends store location parent ↔ parent ∈ parents := by
  obtain ⟨entries, holds, named⟩ := links
  rw [holds.extends_iff (extendsEntries_extending entries), ← List.mem_map,
    named]
  simp

theorem Links.isValid {parents : List Location}
    (links : Links store location parents) : IsValid store location := by
  obtain ⟨entries, holds, named⟩ := links
  refine ⟨_, entries, _, holds, extendsEntries_extending entries, rfl, ?_⟩
  intro entry member
  have listed := List.mem_map_of_mem
    (f := extendedConfig? store location.parent) member
  rw [named] at listed
  obtain ⟨parent, _, same⟩ := List.mem_map.mp listed
  exact ⟨some parent, same.symm⟩

theorem Links.isLocatedAt {parents : List Location}
    (links : Links store location parents) : IsLocatedAt store location := by
  obtain ⟨entries, holds, _⟩ := links
  intro members declared also options text listed
  cases also.unique holds
  cases options
  cases listed

/-- Where each description that is reached only extends others of lower rank,
no way comes back. -/
theorem not_comesBack {back : Location} (rank : Location → Nat)
    (lower : AllReached store location fun child =>
      ∀ parent, Extends store child parent → rank parent < rank child) :
    ¬ ComesBack store location back := by
  let above (child parent : Location) : Prop := rank parent < rank child
  have trans : Trans above above above :=
    ⟨fun first second => Nat.lt_trans second first⟩
  have descends : ∀ way, (location :: way).IsChain (Extends store) →
      (location :: way).IsChain above := by
    intro way chain
    induction way generalizing location with
    | nil => exact List.isChain_singleton _
    | cons next rest ih =>
        rw [List.isChain_cons_cons] at chain ⊢
        exact ⟨lower.here next chain.1, ih (lower.parent chain.1) chain.2⟩
  rintro ⟨way, first, passed, chain⟩
  obtain ⟨rest, rfl⟩ := List.head?_eq_some_iff.mp first
  have ordered := (descends (rest ++ [back]) chain).pairwise
  have lowered := (List.pairwise_append.mp ordered).2.2 back passed back
    (List.mem_singleton_self _)
  exact Nat.lt_irrefl _ lowered

/-- Each of two descriptions extends the other. -/
def circleFiles : Store :=
  (Store.empty.write ⟨["a.json"]⟩
    (.ofText "\x7b\"extends\":[\"./b.json\"]\x7d")).write ⟨["b.json"]⟩
      (.ofText "\x7b\"extends\":[\"./a.json\"]\x7d")

/-- A description reaches another by two ways. -/
def diamondFiles : Store :=
  (((Store.empty.write ⟨["a.json"]⟩
    (.ofText "\x7b\"extends\":[\"./b.json\",\"./c.json\"]\x7d")).write
      ⟨["b.json"]⟩ (.ofText "\x7b\"extends\":[\"./d.json\"]\x7d")).write
      ⟨["c.json"]⟩ (.ofText "\x7b\"extends\":[\"./d.json\"]\x7d")).write
      ⟨["d.json"]⟩ (.ofText "\x7b\"extends\":[]\x7d")

/-- An entry that ends in `.json` names the description at that place. -/
theorem extendedConfig?_of_complete {directory named : Location}
    {entry : WideText} (relative : entry.points.head? = some (.character '.'))
    (clean : (directory.path.joinWide entry).holdsNull = false)
    (place : directory.resolveWide entry = named)
    (complete : named.suffix = ".json") :
    extendedConfig? store directory entry = .ok (some named) := by
  have located : directory.locateWide entry = .ok named :=
    locateWide_eq_ok.mpr ⟨clean, place.symm⟩
  rw [extendedConfig?, if_pos relative, located, ok_bind, if_pos complete]
  rfl

theorem links_circle :
    Links circleFiles ⟨["a.json"]⟩ [⟨["b.json"]⟩] ∧
    Links circleFiles ⟨["b.json"]⟩ [⟨["a.json"]⟩] := by
  refine ⟨⟨["./b.json"], ⟨_, text?_ofText rfl, by cbv⟩, ?_⟩,
    ⟨["./a.json"], ⟨_, text?_ofText rfl, by cbv⟩, ?_⟩⟩
  all_goals
    refine congrArg (fun extended => [extended]) ?_
    exact extendedConfig?_of_complete (by decide) (by decide) (by decide)
      (by decide)

theorem links_diamond :
    Links diamondFiles ⟨["a.json"]⟩ [⟨["b.json"]⟩, ⟨["c.json"]⟩] ∧
    Links diamondFiles ⟨["b.json"]⟩ [⟨["d.json"]⟩] ∧
    Links diamondFiles ⟨["c.json"]⟩ [⟨["d.json"]⟩] ∧
    Links diamondFiles ⟨["d.json"]⟩ [] := by
  refine ⟨⟨["./b.json", "./c.json"], ⟨_, text?_ofText rfl, by cbv⟩, ?_⟩,
    ⟨["./d.json"], ⟨_, text?_ofText rfl, by cbv⟩, ?_⟩,
    ⟨["./d.json"], ⟨_, text?_ofText rfl, by cbv⟩, ?_⟩,
    ⟨[], ⟨_, text?_ofText rfl, by cbv⟩, rfl⟩⟩
  all_goals
    simp only [List.map_cons, List.map_nil, List.cons.injEq, and_true]
    repeat' apply And.intro
  all_goals
    exact extendedConfig?_of_complete (by decide) (by decide) (by decide)
      (by decide)

theorem allReached_circle : AllReached circleFiles ⟨["a.json"]⟩ fun reached =>
    ∃ parents, Links circleFiles reached parents := by
  obtain ⟨first, second⟩ := links_circle
  have links : ∀ child ∈ [⟨["a.json"]⟩, ⟨["b.json"]⟩], ∃ parents,
      Links circleFiles child parents ∧
        parents ⊆ [⟨["a.json"]⟩, ⟨["b.json"]⟩] := by
    simp only [List.forall_mem_cons]
    exact ⟨⟨_, first, by simp⟩, ⟨_, second, by simp⟩, by simp⟩
  have listed := allReached_of_closed (List.mem_cons_self ..)
    fun child member parent direct => by
      obtain ⟨_, linked, inside⟩ := links child member
      exact inside (linked.extends_iff.mp direct)
  exact listed.imp fun reached member =>
    (links reached member).imp fun _ linked => linked.1

/-- The descriptions of the diamond, and how many steps lead on from each. -/
def diamondRank (location : Location) : Nat :=
  if location = ⟨["a.json"]⟩ then 2
  else if location = ⟨["d.json"]⟩ then 0 else 1

theorem allReached_diamond : AllReached diamondFiles ⟨["a.json"]⟩ fun reached =>
    ∃ parents, Links diamondFiles reached parents ∧
      ∀ parent ∈ parents, diamondRank parent < diamondRank reached := by
  obtain ⟨first, second, third, fourth⟩ := links_diamond
  have links : ∀ child ∈ [⟨["a.json"]⟩, ⟨["b.json"]⟩, ⟨["c.json"]⟩,
      ⟨["d.json"]⟩], ∃ parents, Links diamondFiles child parents ∧
        parents ⊆ [⟨["a.json"]⟩, ⟨["b.json"]⟩, ⟨["c.json"]⟩,
          ⟨["d.json"]⟩] ∧
        ∀ parent ∈ parents, diamondRank parent < diamondRank child := by
    simp only [List.forall_mem_cons]
    exact ⟨⟨_, first, by simp, by decide⟩, ⟨_, second, by simp, by decide⟩,
      ⟨_, third, by simp, by decide⟩, ⟨_, fourth, by simp, by decide⟩, by simp⟩
  have listed := allReached_of_closed (List.mem_cons_self ..)
    fun child member parent direct => by
      obtain ⟨_, linked, inside, _⟩ := links child member
      exact inside (linked.extends_iff.mp direct)
  exact listed.imp fun reached member =>
    (links reached member).imp fun _ linked => ⟨linked.1, linked.2.2⟩

end ExportAudit.Config
