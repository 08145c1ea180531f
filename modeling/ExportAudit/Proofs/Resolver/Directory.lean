import ExportAudit.Proofs.Resolver.Relative

/-!
# Specifiers of directories

A relative specifier that ends in a slash, `.` or `..` names a directory, whose
modules are the index files in it.  A lookup forgets how its place was written,
and probes the files beside the directory first: those with the directory's own
name and a suffix.  So an index file is found only if no module is such a file.
-/

namespace ExportAudit.Resolver

/-- A relative specifier names a directory: its last part is `.`, `..` or
empty. -/
def NamesDirectory (specifier : String) : Prop :=
  isRelative specifier = true ∧
    (specifier = "." ∨ specifier = ".." ∨ ['/'] <:+ specifier.toList ∨
      ['/', '.'] <:+ specifier.toList ∨ ['/', '.', '.'] <:+ specifier.toList)

instance (specifier : String) : Decidable (NamesDirectory specifier) :=
  inferInstanceAs (Decidable (_ ∧ _))

/-- The index files of a directory. -/
def indexFiles (directory : Location) : List Location :=
  extensions.map fun extension => directory.child ("index" ++ extension)

/-- The files that bear the name of a directory: at its own place, with the
suffix of a source in place of its own, or with an extension behind its name. -/
def namesakes (directory : Location) : List Location :=
  directory :: ((sourceSuffixes directory.suffix).map directory.withSuffix ++
    extensions.map fun extension =>
      directory.parent.child (directory.name ++ extension))

theorem candidates_eq (directory : Location) :
    candidates directory = namesakes directory ++ indexFiles directory := by
  rw [candidates, namesakes, indexFiles, List.cons_append]

/-- What stands beside a directory does not stand in it. -/
theorem child_ne_sibling {directory : Location} (nested : directory.names ≠ [])
    (inner outer : String) :
    directory.child inner ≠ directory.parent.child outer := by
  intro same
  have lengths := congrArg (fun location => location.names.length) same
  have some := List.length_pos_of_ne_nil nested
  simp only [Location.child, Location.parent, List.length_append,
    List.length_singleton, List.length_dropLast] at lengths
  omega

theorem not_mem_indexFiles {directory namesake : Location}
    (member : namesake ∈ namesakes directory) :
    namesake ∉ indexFiles directory := by
  by_cases nested : directory.names = []
  · have atRoot : ∀ file ∈ namesakes .root, file ∉ indexFiles .root := by decide
    have root : directory = .root := congrArg Location.mk nested
    rw [root] at member ⊢
    exact atRoot namesake member
  · intro index
    obtain ⟨extension, _, rfl⟩ := List.mem_map.mp index
    rw [namesakes, List.mem_cons, List.mem_append, List.mem_map, List.mem_map]
      at member
    rcases member with same | ⟨suffix, _, same⟩ | ⟨other, _, same⟩
    · have lengths := congrArg (fun location => location.names.length) same
      simp [Location.child] at lengths
    · exact child_ne_sibling nested _ _ same.symm
    · exact child_ne_sibling nested _ _ same.symm

section Lookup

variable {resolver : Resolver} {directory : Location}

theorem probe_of_no_namesake
    (none : ∀ namesake ∈ namesakes directory, namesake ∉ resolver.modules) :
    resolver.probe directory =
      (indexFiles directory).find? (· ∈ resolver.modules) := by
  rw [probe, candidates_eq, List.find?_append]
  have missed : (namesakes directory).find? (· ∈ resolver.modules) = .none := by
    apply List.find?_eq_none.mpr
    simpa using none
  rw [missed, Option.none_or]

theorem exists_probe_of_namesake {namesake : Location}
    (member : namesake ∈ namesakes directory)
    (listed : namesake ∈ resolver.modules) :
    ∃ found ∈ namesakes directory, resolver.probe directory = some found := by
  rw [probe, candidates_eq, List.find?_append]
  cases found : (namesakes directory).find? (· ∈ resolver.modules) with
  | none =>
      have missed := List.find?_eq_none.mp found namesake member
      exact absurd (decide_eq_true listed) missed
  | some first => exact ⟨first, List.mem_of_find?_eq_some found, rfl⟩

/-- A specifier that names a directory denotes an index file of it or nothing
exactly if no module bears the directory's name, and then it denotes the first
index file that is a module. -/
theorem locate_directory {importer : Location} {specifier : String}
    (names : NamesDirectory specifier) :
    let path := importer.parent.path.join specifier
    (path.holdsNull = true →
      resolver.locate importer specifier = .error .nullCharacter) ∧
    (path.holdsNull = false →
      ∃ found, resolver.locate importer specifier = .ok found ∧
        ((∀ module, found = some module → module ∈ indexFiles path.resolve) ↔
          ∀ namesake ∈ namesakes path.resolve, namesake ∉ resolver.modules) ∧
        ((∀ namesake ∈ namesakes path.resolve, namesake ∉ resolver.modules) →
          found = (indexFiles path.resolve).find? (· ∈ resolver.modules))) := by
  intro path
  rw [locate_of_isRelative names.1]
  constructor
  · intro null
    rw [Path.locate, if_pos null]
    rfl
  · intro clean
    refine ⟨resolver.probe path.resolve, ?_, ⟨?_, ?_⟩, probe_of_no_namesake⟩
    · rw [Path.locate, clean]
      rfl
    · intro onlyIndex namesake member listed
      obtain ⟨found, bears, probed⟩ := exists_probe_of_namesake member listed
      exact not_mem_indexFiles bears (onlyIndex found probed)
    · intro none module probed
      rw [probe_of_no_namesake none] at probed
      exact List.mem_of_find?_eq_some probed

end Lookup

/-- A resolver with a directory, and another one beside which stands a file of
its name. -/
def twoDirectories : Resolver :=
  build [⟨["src", "lib", "index.ts"]⟩, ⟨["src", "app.ts"]⟩,
    ⟨["src", "app", "index.ts"]⟩] none [] none

theorem locate_directory_twoDirectories :
    NamesDirectory "../lib/" ∧ NamesDirectory "." ∧
    twoDirectories.locate ⟨["src", "app", "index.ts"]⟩ "../lib/" =
      .ok (some ⟨["src", "lib", "index.ts"]⟩) ∧
    twoDirectories.locate ⟨["src", "app", "index.ts"]⟩ "." ≠
      .ok (some ⟨["src", "app", "index.ts"]⟩) := by
  have lib : NamesDirectory "../lib/" := by decide
  have here : NamesDirectory "." := by decide
  refine ⟨lib, here, ?_, ?_⟩
  · obtain ⟨found, located, _, first⟩ := (@locate_directory twoDirectories
      ⟨["src", "app", "index.ts"]⟩ "../lib/" lib).2 (by decide)
    rw [located, first (by decide)]
    decide
  · obtain ⟨found, located, onlyIndex, _⟩ := (@locate_directory twoDirectories
      ⟨["src", "app", "index.ts"]⟩ "." here).2 (by decide)
    intro same
    rw [located] at same
    cases same
    revert onlyIndex
    decide

end ExportAudit.Resolver
