import ExportAudit.Proofs.Analysis.Additions
import ExportAudit.Proofs.Project.Selection

/-!
# Versions of a project

Two stores hold versions of a project that differ in one module: every other
module loads alike from both.  What such versions have in common are the
references between the other modules.

A single module can stop the analysis of a project, by a specifier that leads to
the null character or by unused names whose removal splits a character.  So two
versions may differ in whether there are findings at all.
-/

namespace ExportAudit

/-! ## Loading a file -/

namespace Module

variable {before after : Store} {location : Location}

/-- How a file loads depends on nothing else in the store. -/
theorem load_eq_of_find? (isFile : before.isFile location = true)
    (found : after.find? location = before.find? location) :
    load after location = load before location := by
  cases stands : before.find? location with
  | none => simp [Store.isFile, Store.file?, stands] at isFile
  | some entry =>
      simp only [load, found, stands]
      cases Language.ofSuffix? location.suffix with
      | none => rfl
      | some language => cases entry <;> rfl

end Module

namespace Project

/-! ## Versions that differ in one module -/

variable {project : Project} {place location : Location}
  {before after store : Store} {settings : Settings}

/-- Two stores hold versions of a project that differ at most in the module at
one location: every other module loads alike from both. -/
def SameApartFrom (project : Project) (place : Location)
    (before after : Store) : Prop :=
  ∀ location ∈ project.modules, location ≠ place →
    Module.load after location = Module.load before location

/-- Stores that differ at one location only hold such versions of every project
that loads from the first of them. -/
theorem sameApartFrom_of_find? {config : Location}
    (loads : Project.load before config = .ok project)
    (elsewhere : ∀ location, location ≠ place →
      after.find? location = before.find? location) :
    project.SameApartFrom place before after := by
  intro location member apart
  exact Module.load_eq_of_find? (isFile_of_load loads location member)
    (elsewhere location apart)

namespace SameApartFrom

theorem symm (same : project.SameApartFrom place before after) :
    project.SameApartFrom place after before := by
  intro location member apart
  exact (same location member apart).symm

theorem mem_loaded {module : Module}
    (same : project.SameApartFrom place before after)
    (loaded : module ∈ project.loaded before)
    (apart : module.location ≠ place) : module ∈ project.loaded after := by
  rw [Project.mem_loaded] at loaded ⊢
  rw [same module.location loaded.1 apart]
  exact loaded

theorem mem_loadedLocations (same : project.SameApartFrom place before after)
    (loaded : location ∈ project.loadedLocations before)
    (apart : location ≠ place) : location ∈ project.loadedLocations after := by
  obtain ⟨module, listed, at_location⟩ := List.mem_map.mp loaded
  subst at_location
  exact List.mem_map.mpr ⟨module, same.mem_loaded listed apart, rfl⟩

theorem mem_references {reference : Reference Location}
    (same : project.SameApartFrom place before after)
    (given : reference ∈ project.references before)
    (apart : reference.source ≠ place) :
    reference ∈ project.references after := by
  obtain ⟨module, loaded, member⟩ := List.mem_flatMap.mp given
  rw [Module.source_of_mem_references member] at apart
  exact List.mem_flatMap.mpr ⟨module, same.mem_loaded loaded apart, member⟩

/-- The graphs of both versions have the same references between modules other
than the one in which they differ. -/
theorem kept {reference : Reference Location}
    (same : project.SameApartFrom place before after)
    (kept : reference.Kept (project.loadedLocations before)
      (project.references before))
    (source : reference.source ≠ place) (target : reference.target ≠ place) :
    reference.Kept (project.loadedLocations after)
      (project.references after) where
  given := same.mem_references kept.given source
  source_mem := same.mem_loadedLocations kept.source_mem source
  target_mem := same.mem_loadedLocations kept.target_mem target

end SameApartFrom

/-! ## Modules that stop the analysis -/

/-- The module at a location stops the analysis: the lookup of one of its
specifiers comes to the null character, or removing its unused names is wanted
and splits a character. -/
def StopsAt (project : Project) (store : Store) (settings : Settings)
    (location : Location) : Prop :=
  ∃ module, Module.load store location = .ok module ∧
    (module.MeetsNull project.resolver ∨
      settings.checkUnusedLocals = true ∧ module.SplitsCharacter)

/-- With workers, the analysis of a project stops exactly at its modules. -/
theorem fails_analyze_iff_stopsAt (workers : 0 < settings.jobs) :
    Fails (project.analyze store settings) ↔
      ∃ location ∈ project.modules, project.StopsAt store settings location := by
  rw [fails_analyze workers]
  constructor
  · intro stopped
    cases stopped with
    | inl null =>
        obtain ⟨module, loaded, met⟩ := null
        obtain ⟨member, loads⟩ := Project.mem_loaded.mp loaded
        exact ⟨module.location, member, module, loads, .inl met⟩
    | inr split =>
        obtain ⟨wanted, module, loaded, splits⟩ := split
        obtain ⟨member, loads⟩ := Project.mem_loaded.mp loaded
        exact ⟨module.location, member, module, loads, .inr ⟨wanted, splits⟩⟩
  · intro stopping
    obtain ⟨location, member, module, loads, reason⟩ := stopping
    have place := Module.location_of_load loads
    subst place
    have loaded : module ∈ project.loaded store :=
      Project.mem_loaded.mpr ⟨member, loads⟩
    cases reason with
    | inl met => exact .inl ⟨module, loaded, met⟩
    | inr split => exact .inr ⟨split.1, module, loaded, split.2⟩

/-- Where the analysis of one version returns, that of the other returns unless
the module in which they differ stops it. -/
theorem SameApartFrom.exists_analyze_eq_ok {findings : List Diagnostic}
    (same : project.SameApartFrom place before after)
    (member : place ∈ project.modules)
    (analyzed : project.analyze before settings = .ok findings) :
    (∃ others, project.analyze after settings = .ok others) ↔
      ¬ project.StopsAt after settings place := by
  have workers : 0 < settings.jobs := workers_of_analyze analyzed
  rw [exists_ok_iff, fails_analyze_iff_stopsAt workers, not_iff_not]
  constructor
  · intro stopping
    obtain ⟨location, listed, stops⟩ := stopping
    by_cases here : location = place
    · rw [← here]
      exact stops
    · -- A module that both versions share would have stopped the first analysis.
      have stopped : Fails (project.analyze before settings) := by
        apply (fails_analyze_iff_stopsAt workers).mpr
        refine ⟨location, listed, ?_⟩
        simp only [StopsAt, ← same location listed here]
        exact stops
      rw [analyzed] at stopped
      exact absurd stopped (not_failsBy_ok _ _)
  · intro stops
    exact ⟨place, member, stops⟩

end Project

end ExportAudit
