import ExportAudit.Analysis
import ExportAudit.Proofs.Module.Loading
import ExportAudit.Proofs.Reference.Locating

/-!
# The sections of an analysis

What is found about a project consists of one section for each of its modules,
in order.  A section depends on the module itself, on the settings and on the
usage of the module; a project whose specifiers cannot all be located has no
sections.
-/

namespace ExportAudit

/-- Settings under which a single worker looks for unused exports only. -/
def Settings.plain (policy : ReexportPolicy) : Settings :=
  ⟨.root, policy, 1, false, false⟩

/-! ## Loaded modules -/

namespace Project

variable {project : Project} {store : Store} {settings : Settings}

/-- The modules of a project that can be loaded. -/
def loaded (project : Project) (store : Store) : List Module :=
  loadedModules (project.scan store)

theorem mem_loaded {module : Module} :
    module ∈ project.loaded store ↔
      module.location ∈ project.modules ∧
        Module.load store module.location = .ok module := by
  unfold loaded loadedModules scan
  rw [List.filterMap_map, List.mem_filterMap]
  simp only [Function.comp_apply]
  constructor
  · rintro ⟨location, member, found⟩
    have loads : Module.load store location = .ok module := by
      cases outcome : Module.load store location with
      | error error => simp [outcome, Except.toOption] at found
      | ok other =>
          simp only [outcome, Except.toOption, Option.some.injEq] at found
          rw [found]
    rw [Module.location_of_load loads]
    exact ⟨member, loads⟩
  · rintro ⟨member, loads⟩
    exact ⟨module.location, member, by rw [loads]; rfl⟩

/-- The lookup of a specifier of the project comes to a path that holds the null
character. -/
def MeetsNull (project : Project) (store : Store) : Prop :=
  ∃ module ∈ project.loaded store, module.MeetsNull project.resolver

theorem not_meetsNull_of_paths
    (fine : ∀ module ∈ project.loaded store, ∀ specifier ∈ module.specifiers,
      ∀ path ∈ project.resolver.paths module.location specifier,
        path.holdsNull = false) : ¬ project.MeetsNull store := by
  intro met
  obtain ⟨module, loaded, specifier, listed, null⟩ := met
  obtain ⟨path, tried, null⟩ := null.exists_mem
  rw [fine module loaded specifier listed path tried] at null
  cases null

/-- The usage of every loaded module of a project. -/
def usageIndex (project : Project) (store : Store) (policy : ReexportPolicy) :
    UsageIndex Location :=
  (moduleGraph project.resolver (project.scan store)).usageIndex policy

/-- The findings on one module of a project. -/
def findingsOn (project : Project) (store : Store) (settings : Settings)
    (location : Location) : Except Failure (List Diagnostic) :=
  Scan.findings ⟨location, Module.load store location⟩ settings
    (project.usageIndex store settings.reexportPolicy)

/-! ## The analysis as a whole -/

theorem locateSpecifiers_eq :
    locateSpecifiers project.resolver (project.scan store) =
      (fun _ => ()) <$> (project.loaded store).mapM fun module =>
        (module.locateReferences project.resolver).map fun _ => () := by
  unfold locateSpecifiers loaded
  rw [forM_eq_map_mapM]

theorem locateSpecifiers_of_meetsNull (null : project.MeetsNull store) :
    locateSpecifiers project.resolver (project.scan store) =
      .error .nullCharacter := by
  have only : ∀ module ∈ project.loaded store, ∀ failure,
      ((module.locateReferences project.resolver).map fun _ => ()) =
        .error failure → failure = .nullCharacter := by
    intro module _ failure failed
    by_cases known : module.MeetsNull project.resolver
    · rw [Module.locateReferences_of_meetsNull known] at failed
      cases failed
      rfl
    · rw [Module.locateReferences_of_not_meetsNull known] at failed
      cases failed
  obtain ⟨module, member, met⟩ := null
  have failing : Fails
      ((module.locateReferences project.resolver).map fun _ => ()) := by
    rw [Module.locateReferences_of_meetsNull met]
    exact ⟨.nullCharacter, rfl, trivial⟩
  rw [locateSpecifiers_eq, mapM_eq_error only ⟨module, member, failing⟩]
  rfl

theorem locateSpecifiers_of_not_meetsNull (fine : ¬ project.MeetsNull store) :
    locateSpecifiers project.resolver (project.scan store) = .ok () := by
  have each : ∀ module ∈ project.loaded store,
      ((module.locateReferences project.resolver).map fun _ => ()) =
        .ok () := by
    intro module member
    rw [Module.locateReferences_of_not_meetsNull fun met =>
      fine ⟨module, member, met⟩]
    rfl
  rw [locateSpecifiers_eq, mapM_eq_ok_map each]
  rfl

theorem analyze_of_no_workers (idle : settings.jobs ≤ 0) :
    project.analyze store settings = .error .noWorkers := by
  unfold analyze
  rw [if_pos idle]
  rfl

/-- With workers, what is found is gathered from the modules once all specifiers
are located. -/
theorem analyze_of_workers (workers : 0 < settings.jobs) :
    project.analyze store settings =
      locateSpecifiers project.resolver (project.scan store) >>= fun _ =>
        List.flatten <$>
          project.modules.elements.mapM
            (project.findingsOn store settings) := by
  unfold analyze
  rw [if_neg (Int.not_le.mpr workers)]
  dsimp only
  apply bind_congr
  intro located
  rw [bind_pure_comp]
  unfold findingsOn usageIndex
  generalize Graph.usageIndex settings.reexportPolicy
    (moduleGraph project.resolver (project.scan store)) = index
  unfold scan
  rw [List.mapM_map, Function.comp_def]

theorem analyze_of_meetsNull (workers : 0 < settings.jobs)
    (null : project.MeetsNull store) :
    project.analyze store settings = .error .nullCharacter := by
  rw [analyze_of_workers workers, locateSpecifiers_of_meetsNull null]
  rfl

/-- The findings on a project are those on its modules, in order. -/
theorem analyze_of_not_meetsNull (workers : 0 < settings.jobs)
    (fine : ¬ project.MeetsNull store) :
    project.analyze store settings =
      List.flatten <$>
        project.modules.elements.mapM (project.findingsOn store settings) := by
  rw [analyze_of_workers workers, locateSpecifiers_of_not_meetsNull fine]
  rfl

/-- Findings on a project, told apart by the modules that they are about. -/
structure Reports (project : Project) (store : Store) (settings : Settings)
    (findings : List Diagnostic) (about : Location → List Diagnostic) :
    Prop where
  findings_eq : findings = project.modules.elements.flatMap about
  findingsOn_eq : ∀ location ∈ project.modules,
    project.findingsOn store settings location = .ok (about location)

/-- Only workers return findings. -/
theorem workers_of_analyze {findings : List Diagnostic}
    (analyzed : project.analyze store settings = .ok findings) :
    0 < settings.jobs := by
  by_contra idle
  rw [analyze_of_no_workers (Int.not_lt.mp idle)] at analyzed
  cases analyzed

/-- The findings on a project can be told apart by module. -/
theorem exists_reports {findings : List Diagnostic}
    (analyzed : project.analyze store settings = .ok findings) :
    ∃ about, project.Reports store settings findings about := by
  have workers : 0 < settings.jobs := workers_of_analyze analyzed
  have fine : ¬ project.MeetsNull store := by
    intro null
    rw [analyze_of_meetsNull workers null] at analyzed
    cases analyzed
  rw [analyze_of_not_meetsNull workers fine] at analyzed
  let about (location : Location) : List Diagnostic :=
    (project.findingsOn store settings location).toOption.getD []
  have each : ∀ location ∈ project.modules.elements,
      project.findingsOn store settings location = .ok (about location) := by
    intro location member
    have passed : ¬ Fails (project.findingsOn store settings location) := by
      intro failed
      have stopped : Fails (List.flatten <$> project.modules.elements.mapM
          (project.findingsOn store settings)) :=
        failsBy_map.mpr (fails_mapM.mpr ⟨location, member, failed⟩)
      rw [analyzed] at stopped
      exact not_failsBy_ok _ _ stopped
    obtain ⟨found, result⟩ := exists_ok_iff.mpr passed
    have same : about location = found := by
      unfold about
      rw [result]
      rfl
    rw [same, result]
  refine ⟨about, ?_, each⟩
  rw [mapM_eq_ok_map each] at analyzed
  cases analyzed
  rw [List.flatMap_def]

end Project

/-! ## Sections that stop the analysis -/

/-- Removing the unused names of a module splits a character, so that no text
is left to compare with. -/
def Module.SplitsCharacter (module : Module) : Prop :=
  module.isDeclarationFile = false ∧
    Text.Utf8.decode?
      (Edit.applyAll module.unusedLocalEdits module.source) = none

theorem Module.unusedLocalsFinding?_eq_none {module : Module} {file : String} :
    module.unusedLocalsFinding? file = none ↔ module.SplitsCharacter := by
  unfold unusedLocalsFinding? hasUnusedLocals? SplitsCharacter
  rw [Option.map_eq_none_iff]
  cases module.isDeclarationFile with
  | true => simp
  | false => simp [withoutUnusedLocals?]

theorem Module.fails_findings {module : Module} {settings : Settings}
    {usage : Usage} {file : String} :
    Fails (module.findings settings usage file) ↔
      settings.checkUnusedLocals = true ∧ module.SplitsCharacter := by
  have none_iff : module.unusedLocalsFinding? file = none ↔ _ :=
    unusedLocalsFinding?_eq_none
  unfold findings
  rw [← none_iff]
  cases settings.checkUnusedLocals with
  | true =>
      cases module.unusedLocalsFinding? file with
      | some finding => simp
      | none => simp [throw, throwThe, MonadExceptOf.throw]
  | false => simp

namespace Project

variable {project : Project} {store : Store} {settings : Settings}

theorem fails_findingsOn {location : Location} :
    Fails (project.findingsOn store settings location) ↔
      settings.checkUnusedLocals = true ∧
        ∃ module, Module.load store location = .ok module ∧
          module.SplitsCharacter := by
  unfold findingsOn Scan.findings
  cases Module.load store location with
  | error error => simp
  | ok module => simp [Module.fails_findings]

/-- With workers, the analysis of a project stops exactly if a lookup comes to
the null character or the removal of unused names splits a character. -/
theorem fails_analyze (workers : 0 < settings.jobs) :
    Fails (project.analyze store settings) ↔
      project.MeetsNull store ∨
        settings.checkUnusedLocals = true ∧
          ∃ module ∈ project.loaded store, module.SplitsCharacter := by
  by_cases null : project.MeetsNull store
  · simp [analyze_of_meetsNull workers null, null]
  · rw [analyze_of_not_meetsNull workers null]
    simp only [failsBy_map, fails_mapM, fails_findingsOn, null, false_or]
    constructor
    · rintro ⟨location, member, wanted, module, loads, splits⟩
      have place := Module.location_of_load loads
      subst place
      exact ⟨wanted, module, mem_loaded.mpr ⟨member, loads⟩, splits⟩
    · rintro ⟨wanted, module, member, splits⟩
      have loaded := mem_loaded.mp member
      exact ⟨module.location, loaded.1, wanted, module, loaded.2, splits⟩

/-- A search for unused exports only returns once all specifiers are located. -/
theorem exists_analyze_plain {policy : ReexportPolicy}
    (fine : ¬ project.MeetsNull store) :
    ∃ findings, project.analyze store (.plain policy) = .ok findings := by
  have workers : 0 < (Settings.plain policy).jobs := by simp [Settings.plain]
  rw [exists_ok_iff, fails_analyze workers]
  simp [fine, Settings.plain]

end Project

end ExportAudit
