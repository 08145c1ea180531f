import Mathlib.Data.List.Induction
import Mathlib.Data.List.Infix
import ExportAudit.Pattern.Expansion
import ExportAudit.Proofs.Pattern.Matching

/-!
# Following the components of a pattern

In a file tree every location stands in a directory.  What the components of a
pattern lead to on the way to a file is then a matter of the names on that way
alone.
-/

namespace ExportAudit

/-! ## File trees -/

/-- A text that names an entry of a directory. -/
def IsPart (text : List Char) : Prop :=
  text ≠ [] ∧ text ≠ ['.'] ∧ text ≠ ['.', '.'] ∧ '/' ∉ text

instance (text : List Char) : Decidable (IsPart text) :=
  inferInstanceAs (Decidable (_ ∧ _ ∧ _ ∧ _))

namespace Store

/-- Every entry has names that entries can have, and stands in a directory. -/
structure IsTree (store : Store) : Prop where
  named : ∀ entry ∈ store.entries, ∀ name ∈ entry.1.names, IsPart name.toList
  above : ∀ entry ∈ store.entries, store.isDirectory entry.1.parent = true

variable {store : Store}

theorem contains_of_isDirectory {location : Location}
    (directory : store.isDirectory location = true) :
    store.contains location = true := by
  unfold isDirectory at directory
  unfold contains
  split at directory
  · next found => rw [found]; rfl
  · cases directory

theorem contains_of_isFile {location : Location}
    (file : store.isFile location = true) : store.contains location = true := by
  unfold isFile file? at file
  unfold contains
  split at file
  · next found => rw [found]; rfl
  · cases file

theorem isDirectory_eq_false_of_isFile {location : Location}
    (file : store.isFile location = true) :
    store.isDirectory location = false := by
  unfold isFile file? at file
  unfold isDirectory
  split at file
  · next found => rw [found]
  · cases file

theorem contains_eq_false {location : Location}
    (notDirectory : store.isDirectory location = false)
    (notFile : store.isFile location = false) :
    store.contains location = false := by
  unfold isDirectory at notDirectory
  unfold isFile file? at notFile
  unfold contains
  cases found : store.find? location with
  | none => rfl
  | some entry =>
      rw [found] at notDirectory notFile
      cases entry with
      | directory => cases notDirectory
      | file content => cases notFile

theorem contains_of_mem {entry : Location × Entry}
    (listed : entry ∈ store.entries) : store.contains entry.1 = true := by
  unfold contains find?
  split
  · rfl
  · exact Association.find?_isSome_of_mem listed

/-- What stands at a location other than the root is an entry. -/
theorem exists_entry_of_contains {location : Location}
    (contained : store.contains location = true) (below : location ≠ .root) :
    ∃ entry ∈ store.entries, entry.1 = location := by
  rw [contains, find?, if_neg below] at contained
  exact Association.exists_mem_of_find?_isSome contained

namespace IsTree

theorem isPart (tree : store.IsTree) {location : Location}
    (contained : store.contains location = true) :
    ∀ name ∈ location.names, IsPart name.toList := by
  by_cases root : location = .root
  · rw [root]
    exact fun _ member => nomatch member
  · obtain ⟨entry, listed, rfl⟩ := exists_entry_of_contains contained root
    exact tree.named entry listed

theorem isDirectory_parent (tree : store.IsTree) {location : Location}
    (contained : store.contains location = true) :
    store.isDirectory location.parent = true := by
  by_cases root : location = .root
  · rw [root]
    rfl
  · obtain ⟨entry, listed, rfl⟩ := exists_entry_of_contains contained root
    exact tree.above entry listed

/-- The locations on the way to an entry are directories. -/
theorem isDirectory_above (tree : store.IsTree) {above below : List String}
    (contained : store.contains ⟨above ++ below⟩ = true) (some : below ≠ []) :
    store.isDirectory ⟨above⟩ = true := by
  induction below using List.reverseRecOn with
  | nil => exact absurd rfl some
  | append_singleton others last ih =>
      have parent := tree.isDirectory_parent contained
      rw [Location.parent, ← List.append_assoc, List.dropLast_concat] at parent
      by_cases none : others = []
      · rwa [none, List.append_nil] at parent
      · exact ih (contains_of_isDirectory parent) none

end IsTree

theorem mem_names_of_contains {location : Location} {name : String}
    (contained : store.contains (location.child name) = true) :
    name ∈ store.names location := by
  have below : location.child name ≠ .root := by
    simp [Location.child, Location.root]
  obtain ⟨entry, listed, same⟩ := exists_entry_of_contains contained below
  refine List.mem_map.mpr ⟨entry, List.mem_filter.mpr ⟨listed, ?_⟩, ?_⟩
  · simp [same, Location.child, Location.root, Location.parent]
  · simp [same, Location.child, Location.name, Location.path, Path.name]

end Store

theorem Location.child_parent_name {location : Location}
    (below : location ≠ .root) :
    location.parent.child location.name = location := by
  obtain ⟨names⟩ := location
  obtain none | ⟨others, last, rfl⟩ := List.eq_nil_or_concat names
  · exact absurd (congrArg Location.mk none) below
  · simp [Location.parent, Location.child, Location.name, Location.path,
      Path.name]

theorem Location.name_child (directory : Location) (name : String) :
    (directory.child name).name = name := by
  simp [Location.child, Location.name, Location.path, Path.name]

theorem Location.parent_child (directory : Location) (name : String) :
    (directory.child name).parent = directory := by
  simp [Location.child, Location.parent]

theorem Location.relativeTo?_eq_some {location base : Location}
    {names : List String} :
    location.relativeTo? base = some names ↔
      base.names ++ names = location.names := by
  simp only [Location.relativeTo?, Path.relativeTo?, Location.path, if_true]
  exact List.isPrefixOf?_eq_some_iff_append_eq

namespace Pattern

/-! ## Components -/

/-- Components lead past some names to what has other names below it. -/
inductive Leads : List Component → (names below : List (List Char)) → Prop where
  | done {below : List (List Char)} : Leads [] [] below
  | here {rest : List Component} {below : List (List Char)}
      (inside : below ≠ []) : Leads (.here :: rest) [] below
  | deep {rest : List Component} {above names below : List (List Char)}
      (inside : names ++ below ≠ []) (others : Leads rest names below) :
      Leads (.deep :: rest) (above ++ names) below
  | entry {tokens : List Token} {rest : List Component} {name : List Char}
      {names below : List (List Char)} (known : accepts tokens name = true)
      (others : Leads rest names below) :
      Leads (.entry tokens :: rest) (name :: names) below

theorem Leads.nonempty {components : List Component}
    {names below : List (List Char)} (leads : Leads components names below)
    (some : components ≠ []) : names ++ below ≠ [] := by
  cases leads with
  | done => exact absurd rfl some
  | here inside => exact inside
  | deep inside others =>
      rw [List.append_assoc]
      exact fun none => inside (List.append_eq_nil_iff.mp none).2
  | entry known others => exact List.cons_ne_nil _ _

/-- More names below change nothing. -/
theorem Leads.extend {components : List Component}
    {names below : List (List Char)} (leads : Leads components names below)
    (more : List (List Char)) : Leads components names (below ++ more) := by
  induction leads with
  | done => exact .done
  | here inside => exact .here (by simp [inside])
  | deep inside others ih =>
      refine .deep ?_ ih
      rw [← List.append_assoc]
      exact fun none => inside (List.append_eq_nil_iff.mp none).1
  | entry known others ih => exact .entry known ih

/-- A slash at the end asks for nothing but a directory. -/
theorem Leads.of_append_here {components : List Component}
    {names below : List (List Char)}
    (leads : Leads (components ++ [.here]) names below) :
    Leads components names below := by
  induction components generalizing names with
  | nil =>
      cases leads
      exact .done
  | cons component rest ih =>
      rw [List.cons_append] at leads
      cases leads with
      | here inside => exact .here inside
      | deep inside others => exact .deep inside (ih others)
      | entry known others => exact .entry known (ih others)

section Selection

variable {store : Store} {file : Location}

theorem mem_directoriesFrom {location : Location} {passed : List String}
    (directory : store.isDirectory ⟨location.names ++ passed⟩ = true) :
    ⟨location.names ++ passed⟩ ∈ directoriesFrom store location := by
  by_cases same : (⟨location.names ++ passed⟩ : Location) = location
  · rw [same]
    exact List.mem_cons_self
  · have below : (⟨location.names ++ passed⟩ : Location) ≠ .root := by
      intro root
      have empty : location.names ++ passed = [] := congrArg Location.names root
      obtain ⟨none, nothing⟩ := List.append_eq_nil_iff.mp empty
      rw [nothing, List.append_nil] at same
      exact same rfl
    obtain ⟨entry, listed, found⟩ := Store.exists_entry_of_contains
      (Store.contains_of_isDirectory directory) below
    have relative : (entry.1.relativeTo? location).isSome = true := by
      rw [Location.relativeTo?_eq_some.mpr (congrArg Location.names found.symm)]
      rfl
    refine List.mem_cons_of_mem _ (List.mem_map.mpr
      ⟨entry, List.mem_filter.mpr ⟨listed, ?_⟩, found⟩)
    rw [← found] at same directory
    simp [same, relative, directory]

theorem exists_of_mem_directoriesFrom {location reached : Location}
    (directory : store.isDirectory location = true)
    (member : reached ∈ directoriesFrom store location) :
    ∃ passed, reached.names = location.names ++ passed ∧
      store.isDirectory reached = true := by
  cases member with
  | head => exact ⟨[], (List.append_nil _).symm, directory⟩
  | tail _ later =>
      obtain ⟨entry, listed, rfl⟩ := List.mem_map.mp later
      have known := (List.mem_filter.mp listed).2
      simp only [Bool.and_eq_true] at known
      obtain ⟨passed, relative⟩ := Option.isSome_iff_exists.mp known.1.2
      exact ⟨passed, (Location.relativeTo?_eq_some.mp relative).symm, known.2⟩

/-- The components of a pattern select what they lead to on the way to a
file. -/
theorem mem_select (tree : store.IsTree) (isFile : store.isFile file = true)
    {components : List Component} {location : Location}
    {names below : List String}
    (way : file.names = location.names ++ (names ++ below))
    (leads : Leads components (names.map String.toList)
      (below.map String.toList)) :
    ⟨location.names ++ names⟩ ∈ select store components location := by
  have contained : store.contains ⟨file.names⟩ = true :=
    Store.contains_of_isFile isFile
  induction components generalizing location names with
  | nil =>
      generalize texts : names.map String.toList = parts at leads
      cases leads
      rw [List.map_eq_nil_iff] at texts
      simp [select, texts]
  | cons component rest ih =>
      generalize texts : names.map String.toList = parts at leads
      cases leads with
      | here inside =>
          rw [List.map_eq_nil_iff] at texts
          simp [select, texts]
      | @deep _ above others _ inside later =>
          obtain ⟨passed, left, rfl, rfl, rfl⟩ := List.map_eq_append_iff.mp texts
          have onward : file.names =
              (location.names ++ passed) ++ (left ++ below) := by simp [way]
          have some : left ++ below ≠ [] := by
            simpa [List.append_eq_nil_iff] using inside
          have reached : store.isDirectory ⟨location.names ++ passed⟩ = true :=
            tree.isDirectory_above (onward ▸ contained) some
          have found := @ih ⟨location.names ++ passed⟩ left onward later
          rw [select, List.mem_flatMap]
          refine ⟨_, mem_directoriesFrom reached, ?_⟩
          rwa [List.append_assoc] at found
      | @entry tokens _ name others _ known later =>
          obtain ⟨entry, left, rfl, rfl, rfl⟩ := List.map_eq_cons_iff.mp texts
          have onward : file.names =
              (location.child entry).names ++ (left ++ below) := by
            simp [way, Location.child]
          have found := ih onward later
          have present : store.contains (location.child entry) = true := by
            by_cases last : left ++ below = []
            · rw [last, List.append_nil] at onward
              rwa [onward] at contained
            · exact Store.contains_of_isDirectory
                (tree.isDirectory_above (onward ▸ contained) last)
          have goesOn : (rest.isEmpty ||
              store.isDirectory (location.child entry)) = true := by
            by_cases last : rest = []
            · simp [last]
            · have some := later.nonempty last
              rw [Bool.or_eq_true]
              refine .inr (tree.isDirectory_above (onward ▸ contained) ?_)
              simpa [List.append_eq_nil_iff] using some
          rw [select, List.mem_flatMap]
          refine ⟨location.child entry, List.mem_map.mpr ⟨entry,
            List.mem_filter.mpr ⟨Store.mem_names_of_contains present, known⟩,
            rfl⟩, ?_⟩
          rw [if_pos goesOn]
          simpa [Location.child] using found

/-- What the components of a pattern select on the way to a file, they lead
to. -/
theorem exists_leads (isFile : store.isFile file = true)
    {components : List Component} {location found : Location}
    {below : List String} (relative : .up ∉ components)
    (directory : store.isDirectory location = true)
    (way : file.names = found.names ++ below)
    (selected : found ∈ select store components location) :
    ∃ names, found.names = location.names ++ names ∧
      Leads components (names.map String.toList) (below.map String.toList) := by
  have inside : ∀ {reached : Location} {names : List String},
      store.isDirectory reached = true → found.names = reached.names ++ names →
        names ++ below ≠ [] := by
    intro reached names isDirectory same none
    obtain ⟨noNames, noBelow⟩ := List.append_eq_nil_iff.mp none
    rw [same, noNames, noBelow, List.append_nil, List.append_nil] at way
    have equal : file = reached := congrArg Location.mk way
    rw [← equal, Store.isDirectory_eq_false_of_isFile isFile] at isDirectory
    cases isDirectory
  induction components generalizing location with
  | nil =>
      rw [select, List.mem_singleton] at selected
      exact ⟨[], by rw [selected, List.append_nil], .done⟩
  | cons component rest ih =>
      have notUp : component ≠ .up := fun same =>
        relative (same ▸ List.mem_cons_self)
      have later : .up ∉ rest := fun member =>
        relative (List.mem_cons_of_mem _ member)
      cases component with
      | up => exact absurd rfl notUp
      | here =>
          rw [select, List.mem_singleton] at selected
          refine ⟨[], by rw [selected, List.append_nil], .here ?_⟩
          have some := @inside location [] directory
            (by rw [selected, List.append_nil])
          simpa using some
      | deep =>
          rw [select, List.mem_flatMap] at selected
          obtain ⟨reached, member, selected⟩ := selected
          obtain ⟨passed, above, isDirectory⟩ :=
            exists_of_mem_directoriesFrom directory member
          obtain ⟨names, same, leads⟩ := ih later isDirectory selected
          refine ⟨passed ++ names, by rw [same, above, List.append_assoc], ?_⟩
          rw [List.map_append]
          refine .deep ?_ leads
          have some := inside isDirectory same
          simpa [List.append_eq_nil_iff] using some
      | entry tokens =>
          rw [select, List.mem_flatMap] at selected
          obtain ⟨reached, member, selected⟩ := selected
          obtain ⟨entry, listed, rfl⟩ := List.mem_map.mp member
          have known := (List.mem_filter.mp listed).2
          split at selected
          · next goesOn =>
            rw [Bool.or_eq_true, List.isEmpty_iff] at goesOn
            cases goesOn with
            | inl last =>
                rw [last, select, List.mem_singleton] at selected
                rw [selected, last]
                exact ⟨[entry], rfl, .entry known .done⟩
            | inr isDirectory =>
                obtain ⟨names, same, leads⟩ := ih later isDirectory selected
                refine ⟨entry :: names, ?_, .entry known leads⟩
                rw [same, Location.child, List.append_assoc,
                  List.singleton_append]
          · cases selected

end Selection

end Pattern

end ExportAudit
