import ExportAudit.Project
import ExportAudit.Proofs.Store.Walking

/-!
# Finding descriptions

A search starts at a directory and passes the directories below it, but enters no
excluded one.  Where the search starts is not looked at, so it may start inside an
excluded directory.

Each directory that is passed and holds an entry with one of the two names gives
one description.  Whether the entry is a file is found out when it is read.
-/

namespace ExportAudit

namespace Project

/-- A search that starts at a base passes a directory: no excluded directory is
met on the way down to it. -/
structure IsSearched (store : Store) (base directory : Location) : Prop where
  isDirectory : store.isDirectory directory = true
  below : ∃ names, directory.names = base.names ++ names ∧
    ∀ name ∈ names, name ∉ excludedDirectories

/-- The description of a directory.  Where both kinds stand, the one with typed
sources counts. -/
def description? (store : Store) (directory : Location) : Option Location :=
  if store.contains (directory.child typedConfigName) then
    some (directory.child typedConfigName)
  else if store.contains (directory.child untypedConfigName) then
    some (directory.child untypedConfigName)
  else none

theorem parent_of_description? {store : Store} {directory config : Location}
    (described : description? store directory = some config) :
    config.parent = directory := by
  unfold description? at described
  split at described
  · cases described
    exact Location.parent_child _ _
  · split at described
    · cases described
      exact Location.parent_child _ _
    · cases described

section Searching

variable {store : Store} {base config : Location} {name : String}

/-- The locations with a given name are found in the directories that the search
passes. -/
theorem mem_configsNamed (tree : store.IsTree) :
    config ∈ configsNamed store base name ↔
      ∃ directory, IsSearched store base directory ∧
        store.contains (directory.child name) = true ∧
        config = directory.child name := by
  unfold configsNamed
  rw [List.mem_filter, List.mem_map]
  simp only [Bool.and_eq_true, decide_eq_true_eq, Bool.not_eq_true',
    liesInExcludedDirectory]
  constructor
  · intro known
    obtain ⟨⟨entry, listed, rfl⟩, ⟨⟨other, relative⟩, rfl⟩, searched⟩ := known
    obtain ⟨names, way⟩ := Option.isSome_iff_exists.mp relative
    rw [way] at searched
    have split := Location.relativeTo?_eq_some.mp way
    have some : names ≠ [] := by
      intro none
      rw [none, List.append_nil] at split
      exact other (congrArg Location.mk split.symm)
    have below : entry.1 ≠ .root := by
      intro root
      have empty := split.trans (congrArg Location.names root)
      exact some (List.append_eq_nil_iff.mp empty).2
    have parent := Location.child_parent_name below
    refine ⟨entry.1.parent, ⟨tree.above entry listed, names.dropLast, ?_, ?_⟩,
      ?_, parent.symm⟩
    · rw [Location.parent, ← split, List.dropLast_append_of_ne_nil some]
    · simpa [List.any_eq_false] using searched
    · rw [parent]
      exact Store.contains_of_mem listed
  · intro known
    obtain ⟨directory, searched, contained, rfl⟩ := known
    obtain ⟨names, split, clean⟩ := searched.below
    have way : (directory.child name).relativeTo? base =
        some (names ++ [name]) := by
      rw [Location.relativeTo?_eq_some, ← List.append_assoc, ← split]
      rfl
    have different : directory.child name ≠ base := by
      intro same
      have lengths := congrArg (fun place => place.names.length) same
      simp [Location.child, split] at lengths
    have below : directory.child name ≠ .root := by
      simp [Location.child, Location.root]
    obtain ⟨entry, listed, found⟩ :=
      Store.exists_entry_of_contains contained below
    refine ⟨⟨entry, listed, found⟩, ⟨⟨different, ?_⟩, Location.name_child _ _⟩, ?_⟩
    · rw [way]
      rfl
    · rw [way]
      simpa [List.any_eq_false] using clean

/-- A search gives the descriptions of the directories that it passes. -/
theorem mem_discover (tree : store.IsTree) :
    config ∈ discover store base ↔
      ∃ directory, IsSearched store base directory ∧
        description? store directory = some config := by
  unfold discover
  rw [← OrderedSet.mem_def, OrderedSet.mem_ofList, List.mem_append,
    List.mem_filter]
  simp only [mem_configsNamed tree, Bool.not_eq_true', List.any_eq_false,
    decide_eq_true_eq]
  constructor
  · intro known
    obtain ⟨directory, searched, contained, rfl⟩ |
      ⟨⟨directory, searched, contained, rfl⟩, alone⟩ := known
    · exact ⟨directory, searched, by rw [description?, if_pos contained]⟩
    · have untyped : ¬ store.contains (directory.child typedConfigName) := by
        intro typed
        apply alone (directory.child typedConfigName)
          ⟨directory, searched, typed, rfl⟩
        rw [Location.parent_child, Location.parent_child]
      refine ⟨directory, searched, ?_⟩
      rw [description?, if_neg untyped, if_pos contained]
  · intro known
    obtain ⟨directory, searched, described⟩ := known
    unfold description? at described
    split at described
    · next typed =>
      cases described
      exact .inl ⟨directory, searched, typed, rfl⟩
    · next untyped =>
      split at described
      · next contained =>
        cases described
        refine .inr ⟨⟨directory, searched, contained, rfl⟩, ?_⟩
        intro other listed same
        obtain ⟨place, _, typed, rfl⟩ := listed
        rw [Location.parent_child, Location.parent_child] at same
        exact untyped (same ▸ typed)
      · cases described

end Searching

/-- A search that starts inside an excluded directory meets both kinds of
description, and a package. -/
def nestedConfigs : Store :=
  [["vendor", "app", "jsconfig.json"], ["vendor", "app", "tsconfig.json"],
    ["vendor", "app", "node_modules", "x", "tsconfig.json"],
    ["vendor", "lib", "jsconfig.json"]].foldl
      (fun store names => store.write ⟨names⟩ (.ofTree [] default)) .empty

end Project

end ExportAudit
