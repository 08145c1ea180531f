import ExportAudit.Project
import ExportAudit.Proofs.Failure.Propagation

/-!
# What a description selects

The modules of a project are the listed files and the files that one of the
include patterns selects.  A pattern selects the sources that it denotes and
that are not excluded.
-/

namespace ExportAudit.Project

/-- The endings of the names of a project's sources. -/
def extensions (project : Project) : List String :=
  if project.allowJs then typedExtensions ++ untypedExtensions
  else typedExtensions

/-- An include pattern selects a module. -/
def SelectedBy (store : Store) (extensions : List String) (root : Location)
    (config : Config) (declared : DeclaredPattern) (module : Location) : Prop :=
  ∃ selected, patternModules store extensions root (excludePatterns root config)
    declared = .ok selected ∧ module ∈ selected

/-- A pattern denotes a source that no exclude pattern removes. -/
structure IsCandidate (store : Store) (extensions : List String)
    (root : Location) (config : Config) (declared : DeclaredPattern)
    (module : Location) : Prop where
  denoted : ∃ denoted, Pattern.expand store declared.directory
    declared.pattern.asInclude = .ok denoted ∧ module ∈ denoted
  isSource : hasExtension extensions module.name = true
  isFile : store.isFile module = true
  kept : ∀ other ∈ excludePatterns root config,
    Pattern.excludes other.directory other.pattern.asExclude module = false

section Selecting

variable {store : Store} {extensions : List String} {root module : Location}
  {config : Config} {declared : DeclaredPattern}

/-- A pattern selects the candidates that no excluded directory holds. -/
theorem selectedBy_iff :
    SelectedBy store extensions root config declared module ↔
      IsCandidate store extensions root config declared module ∧
        liesInExcludedDirectory root module = false := by
  constructor
  · intro selected
    obtain ⟨selected, expanded, member⟩ := selected
    obtain ⟨denoted, read, made⟩ := bind_eq_ok.mp expanded
    cases made
    obtain ⟨listed, passed⟩ := List.mem_filter.mp member
    simp only [isExcluded, Bool.and_eq_true, Bool.not_eq_true',
      Bool.or_eq_false_iff, List.any_eq_false, Bool.not_eq_true] at passed
    exact ⟨⟨⟨denoted, read, listed⟩, passed.1.1, passed.1.2, passed.2.2⟩,
      passed.2.1⟩
  · intro known
    obtain ⟨candidate, searched⟩ := known
    obtain ⟨denoted, read, listed⟩ := candidate.denoted
    refine ⟨_, bind_eq_ok.mpr ⟨denoted, read, rfl⟩, List.mem_filter.mpr ⟨listed, ?_⟩⟩
    simp only [isExcluded, Bool.and_eq_true, Bool.not_eq_true',
      Bool.or_eq_false_iff, List.any_eq_false, Bool.not_eq_true]
    exact ⟨⟨candidate.isSource, candidate.isFile⟩, searched, candidate.kept⟩

theorem mem_collectModules {modules : OrderedSet Location}
    (collected : collectModules store extensions root config = .ok modules) :
    module ∈ modules ↔
      module ∈ listedModules store extensions config ∨
        ∃ declared ∈ includePatterns root config,
          SelectedBy store extensions root config declared module := by
  obtain ⟨_, _, collected⟩ := bind_eq_ok.mp collected
  obtain ⟨sections, mapped, kept⟩ := bind_eq_ok.mp collected
  cases kept
  rw [OrderedSet.mem_ofList, List.mem_append, List.mem_flatten]
  apply or_congr_right
  constructor
  · intro listed
    obtain ⟨part, listed, inPart⟩ := listed
    obtain ⟨declared, member, expanded⟩ :=
      exists_of_forall₂_of_mem (mapM_eq_ok.mp mapped).flip listed
    exact ⟨declared, member, part, expanded, inPart⟩
  · intro selected
    obtain ⟨declared, member, part, expanded, inPart⟩ := selected
    obtain ⟨found, listed, same⟩ :=
      exists_of_forall₂_of_mem (mapM_eq_ok.mp mapped) member
    rw [expanded] at same
    cases same
    exact ⟨part, listed, inPart⟩

/-- The modules that a description selects are files. -/
theorem isFile_of_mem_collectModules {modules : OrderedSet Location}
    (collected : collectModules store extensions root config = .ok modules)
    (member : module ∈ modules) : store.isFile module = true := by
  cases (mem_collectModules collected).mp member with
  | inl listed =>
      have kept := (List.mem_filter.mp listed).2
      simp only [Bool.and_eq_true] at kept
      exact kept.1
  | inr selected =>
      obtain ⟨declared, _, selected⟩ := selected
      exact (selectedBy_iff.mp selected).1.isFile

end Selecting

/-- A project that loads has the modules that its description selects. -/
theorem exists_collected_of_load {store : Store} {location : Location}
    {project : Project} (loaded : load store location = .ok project) :
    ∃ config, Config.read store location = .ok config ∧
      collectModules store project.extensions location.parent config =
        .ok project.modules := by
  obtain ⟨config, given, made⟩ := bind_eq_ok.mp loaded
  obtain ⟨modules, collected, done⟩ := bind_eq_ok.mp (mapError_eq_ok.mp made)
  cases done
  exact ⟨config, given, collected⟩

/-- The modules of a project that loads are files. -/
theorem isFile_of_load {store : Store} {config : Location} {project : Project}
    (loads : load store config = .ok project) :
    ∀ location ∈ project.modules, store.isFile location = true := by
  obtain ⟨_, _, collected⟩ := exists_collected_of_load loads
  intro location member
  exact isFile_of_mem_collectModules collected member

end ExportAudit.Project
