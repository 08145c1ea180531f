import ExportAudit.Proofs.Pattern.Reaching

/-!
# Following paths in a file tree

A path is followed name by name, and each name, `..` included, is looked up in a
directory.  A path that can be followed leads to its location.

What exists can be asked for, and so can everything whose names and whose path
are short enough for something to stand there.
-/

namespace ExportAudit

namespace Path

/-- One more name leads on, or back if it is a step up. -/
theorem collapse_concat (names : List String) (name : String) :
    collapse (names ++ [name]) =
      if name = ".." then (collapse names).dropLast
      else collapse names ++ [name] := by
  simp only [collapse, List.foldl_append, List.foldl_cons, List.foldl_nil]
  split
  · rw [List.drop_one, List.dropLast_reverse]
  · rw [List.reverse_cons]

end Path

namespace Store

open Pattern (step?_eq_some follow?_eq foldlM_step?_eq_some noUp_of_contains)

variable {store : Store} {location reached : Location} {path : Path}
  {names : List String}

/-! ## Walking -/

/-- Each of the names is looked up in a directory when they are followed from
the root. -/
def IsWalkable (store : Store) (names : List String) : Prop :=
  ∀ passed ahead, names = passed ++ ahead → ahead ≠ [] →
    store.isDirectory ⟨Path.collapse passed⟩ = true

theorem isWalkable_nil : store.IsWalkable [] := by
  intro passed ahead split some
  exact absurd (List.append_eq_nil_iff.mp split.symm).2 some

theorem isWalkable_concat {name : String} :
    store.IsWalkable (names ++ [name]) ↔
      store.IsWalkable names ∧
        store.isDirectory ⟨Path.collapse names⟩ = true := by
  constructor
  · intro walkable
    refine ⟨?_, walkable names [name] rfl (List.cons_ne_nil _ _)⟩
    intro passed ahead split _
    refine walkable passed (ahead ++ [name]) ?_ (by simp)
    rw [split, List.append_assoc]
  · intro known passed ahead split some
    obtain ⟨walkable, last⟩ := known
    obtain none | ⟨others, final, rfl⟩ := List.eq_nil_or_concat ahead
    · exact absurd none some
    · rw [List.concat_eq_append, ← List.append_assoc] at split
      obtain ⟨rfl, -⟩ := List.append_inj' split rfl
      by_cases none : others = []
      · rwa [none, List.append_nil] at last
      · exact walkable passed others rfl none

/-- A path leads to its location if it can be walked, and to nothing
otherwise. -/
theorem follow?_eq_some_iff :
    store.follow? path = some reached ↔
      store.IsWalkable path.names ∧ reached = path.resolve := by
  rw [follow?_eq, Path.resolve]
  generalize path.names = names
  induction names using List.reverseRecOn generalizing reached with
  | nil => simp [isWalkable_nil, Location.root, Path.collapse, eq_comm]
  | append_singleton others name ih =>
      rw [List.foldlM_append, isWalkable_concat, Path.collapse_concat]
      simp only [List.foldlM_cons, List.foldlM_nil, bind_pure,
        Option.bind_eq_bind, Option.bind_eq_some_iff, ih, step?_eq_some]
      constructor
      · intro known
        obtain ⟨_, ⟨walkable, rfl⟩, directory, rfl⟩ := known
        refine ⟨⟨walkable, directory⟩, ?_⟩
        split <;> rfl
      · intro known
        obtain ⟨⟨walkable, directory⟩, rfl⟩ := known
        refine ⟨_, ⟨walkable, rfl⟩, directory, ?_⟩
        split <;> rfl

/-- Steps up stand in front of all other names. -/
def StepsUpFirst (names : List String) : Prop :=
  ∃ count onward, names = List.replicate count ".." ++ onward ∧
    ∀ name ∈ onward, name ≠ ".."

theorem IsTree.isWalkable_of_isDirectory (tree : store.IsTree)
    (isDirectory : store.isDirectory ⟨names⟩ = true) :
    store.IsWalkable names := by
  have contained := contains_of_isDirectory isDirectory
  have noUp := noUp_of_contains tree contained
  rintro passed ahead rfl some
  rw [Pattern.collapse_eq fun name member =>
    noUp name (List.mem_append_left _ member)]
  exact tree.isDirectory_above contained some

/-- Steps up from a directory lead to directories. -/
theorem IsTree.isWalkable_up (tree : store.IsTree)
    (isDirectory : store.isDirectory ⟨names⟩ = true) (count : Nat) :
    store.IsWalkable (names ++ List.replicate count "..") ∧
      store.isDirectory
        ⟨Path.collapse (names ++ List.replicate count "..")⟩ = true := by
  induction count with
  | zero =>
      have noUp := noUp_of_contains tree (contains_of_isDirectory isDirectory)
      rw [List.replicate_zero, List.append_nil, Pattern.collapse_eq noUp]
      exact ⟨tree.isWalkable_of_isDirectory isDirectory, isDirectory⟩
  | succ count ih =>
      obtain ⟨walkable, reached⟩ := ih
      rw [List.replicate_succ', ← List.append_assoc, isWalkable_concat,
        Path.collapse_concat, if_pos rfl]
      exact ⟨⟨walkable, reached⟩,
        tree.isDirectory_parent (contains_of_isDirectory reached)⟩

/-- Names with steps up in front only can be walked from a directory to whatever
stands where they lead. -/
theorem IsTree.isWalkable_of_contains (tree : store.IsTree)
    {above : List String} (isDirectory : store.isDirectory ⟨above⟩ = true)
    (first : StepsUpFirst names)
    (contained : store.contains ⟨Path.collapse (above ++ names)⟩ = true) :
    store.IsWalkable (above ++ names) := by
  obtain ⟨count, onward, rfl, noUp⟩ := first
  rw [← List.append_assoc] at contained ⊢
  induction onward using List.reverseRecOn with
  | nil =>
      rw [List.append_nil]
      exact (tree.isWalkable_up isDirectory count).1
  | append_singleton others last ih =>
      have here : last ≠ ".." := noUp last (by simp)
      have before : ∀ name ∈ others, name ≠ ".." :=
        fun name member => noUp name (List.mem_append_left _ member)
      rw [← List.append_assoc, Path.collapse_concat, if_neg here] at contained
      have parent := tree.isDirectory_parent contained
      rw [Location.parent, List.dropLast_concat] at parent
      rw [← List.append_assoc, isWalkable_concat]
      exact ⟨ih before (contains_of_isDirectory parent), parent⟩

/-! ## Asking -/

theorem query_of_follow? (followed : store.follow? path = some reached)
    (contained : store.contains reached = true) : store.query path = .ok () := by
  simp [query, followed, contained]

/-- What stands in a tree can be asked for. -/
theorem IsTree.query_of_contains (tree : store.IsTree)
    (contained : store.contains location = true) :
    store.query location.path = .ok () := by
  have noUp := noUp_of_contains tree contained
  have followed : store.follow? location.path = some ⟨[] ++ location.names⟩ :=
    foldlM_step?_eq_some tree noUp contained
  exact query_of_follow? followed contained

/-- Nothing stands at names that are too long. -/
structure IsBounded (store : Store) : Prop where
  names : ∀ entry ∈ store.entries, ∀ name ∈ entry.1.names,
    name.utf8ByteSize ≤ nameLimit
  path : ∀ entry ∈ store.entries, entry.1.text.utf8ByteSize ≤ pathLimit

theorem meetsLongName_eq_false
    (short : ∀ name ∈ names, name.utf8ByteSize ≤ nameLimit) :
    store.meetsLongName location names = false := by
  induction names generalizing location with
  | nil => rfl
  | cons name rest ih =>
      obtain ⟨here, later⟩ := List.forall_mem_cons.mp short
      rw [meetsLongName, ih later, ih later]
      simp [Nat.not_lt.mpr here]

/-- A location with a short path of short names can be asked for. -/
theorem query_of_short
    (short : ∀ name ∈ location.names, name.utf8ByteSize ≤ nameLimit)
    (path : location.text.utf8ByteSize ≤ pathLimit) :
    store.query location.path = .ok () := by
  have within : ¬ pathLimit < location.path.text.utf8ByteSize :=
    Nat.not_lt.mpr path
  have names : store.meetsLongName .root location.path.names = false :=
    meetsLongName_eq_false short
  simp [query, within, names]

theorem IsBounded.query_of_contains (bounded : store.IsBounded)
    (contained : store.contains location = true) :
    store.query location.path = .ok () := by
  by_cases root : location = .root
  · rw [root]
    rfl
  · obtain ⟨entry, listed, rfl⟩ := exists_entry_of_contains contained root
    exact query_of_short (bounded.names entry listed) (bounded.path entry listed)

end Store

end ExportAudit
