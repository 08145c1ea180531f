import ExportAudit.Proofs.Analysis.Usage

/-!
# Findings under the direct policy

Under the direct policy, and without the other probes, the findings on a project
can be told without a graph: each module that does not load is reported, and of
every other module each export that no reference to it uses.
-/

namespace ExportAudit

/-- The findings on a loaded module when it is known which names are used: one
warning for each export that is not, in the order of the exports. -/
def Module.unusedFindings (module : Module) (used : String → Bool)
    (file : String) : List Diagnostic :=
  (module.exports.filter fun symbol => !used symbol.name).map fun symbol => {
    level := .warn
    message := symbol.unusedMessage (2 ≤ module.occurrences symbol.name)
    file := some file
    line := symbol.line }

namespace Project

variable {project : Project} {store : Store} {settings : Settings}
  {location : Location}

/-- What is reported on the module at a location under the direct policy. -/
def directFindingsOn (project : Project) (store : Store) (settings : Settings)
    (location : Location) : List Diagnostic :=
  match Module.load store location with
  | .error error => [error.finding (settings.displayPath location)]
  | .ok module =>
      module.unusedFindings (project.usesName store location)
        (settings.displayPath location)

/-- What is reported on a project under the direct policy. -/
def directFindings (project : Project) (store : Store) (settings : Settings) :
    List Diagnostic :=
  project.modules.elements.flatMap (project.directFindingsOn store settings)

theorem findingsOn_direct (member : location ∈ project.modules)
    (direct : settings.reexportPolicy = .direct)
    (noLocals : settings.checkUnusedLocals = false)
    (noComponents : settings.checkClassComponents = false) :
    project.findingsOn store settings location =
      .ok (project.directFindingsOn store settings location) := by
  unfold findingsOn Scan.findings directFindingsOn
  cases loads : Module.load store location with
  | error error => rfl
  | ok module =>
      have loaded : location ∈ project.loadedLocations store :=
        mem_loadedLocations.mpr ⟨module, member, loads⟩
      have used (name : String) :
          decide (¬ name ∈ (project.usageIndex store .direct).usage location) =
            !project.usesName store location name := by
        simp only [mem_usage_direct loaded]
        cases project.usesName store location name <;> rfl
      unfold Module.findings unusedExports Module.unusedFindings
      rw [noLocals, noComponents, direct]
      simp only [used]
      rfl

/-- Once all specifiers are located, what is reported can be told without a
graph. -/
theorem analyze_direct (direct : settings.reexportPolicy = .direct)
    (noLocals : settings.checkUnusedLocals = false)
    (noComponents : settings.checkClassComponents = false)
    (workers : 0 < settings.jobs) (fine : ¬ project.MeetsNull store) :
    project.analyze store settings =
      .ok (project.directFindings store settings) := by
  have each : ∀ location ∈ project.modules.elements,
      project.findingsOn store settings location =
        .ok (project.directFindingsOn store settings location) :=
    fun location member =>
      findingsOn_direct member direct noLocals noComponents
  rw [analyze_of_not_meetsNull workers fine, mapM_eq_ok_map each]
  rw [directFindings, List.flatMap_def]
  rfl

/-- The findings on a project under the direct policy without the other
probes. -/
theorem analyze_direct_exact (project : Project) (store : Store)
    (settings : Settings) (direct : settings.reexportPolicy = .direct)
    (noLocals : settings.checkUnusedLocals = false)
    (noComponents : settings.checkClassComponents = false) :
    (settings.jobs ≤ 0 →
      project.analyze store settings = .error .noWorkers) ∧
    (0 < settings.jobs → project.MeetsNull store →
      project.analyze store settings = .error .nullCharacter) ∧
    (0 < settings.jobs → ¬ project.MeetsNull store →
      project.analyze store settings =
        .ok (project.directFindings store settings)) :=
  ⟨analyze_of_no_workers, analyze_of_meetsNull,
    analyze_direct direct noLocals noComponents⟩

end Project

/-! ## Two modules -/

/-- A module that exports three names. -/
def exporting : Module :=
  ⟨⟨["a.ts"]⟩, Text.Utf8.encode "export \x7ba, b, c\x7d", .typescript,
    .named "program" 0 16 none [
      .named "export_statement" 0 16 none [
        .named "export_clause" 7 16 none [
          .named "export_specifier" 8 9 none [
            .named "identifier" 8 9 "name" []],
          .named "export_specifier" 11 12 none [
            .named "identifier" 11 12 "name" []],
          .named "export_specifier" 14 15 none [
            .named "identifier" 14 15 "name" []]]]]⟩

/-- The clause of an import of the first of them. -/
def namedClause : Node :=
  .named "import_clause" 7 10 none [
    .named "named_imports" 7 10 none [
      .named "import_specifier" 8 9 none [
        .named "identifier" 8 9 "name" []]]]

/-- The clause of an import of all of them. -/
def namespaceClause : Node :=
  .named "import_clause" 29 35 none [
    .named "namespace_import" 29 35 none [
      .named "identifier" 34 35 none []]]

/-- An access to the second of them. -/
def namespaceAccess : Node :=
  .named "member_expression" 47 50 none [
    .named "identifier" 47 48 "object" [],
    .named "property_identifier" 49 50 "property" []]

/-- A module with both imports and the access. -/
def importing : Module :=
  ⟨⟨["b.ts"]⟩,
    Text.Utf8.encode
      "import \x7ba\x7d from './a'\nimport * as n from './a'\nn.b",
    .typescript,
    .named "program" 0 50 none [
      .named "import_statement" 0 21 none [
        namedClause,
        .named "string" 16 21 "source" []],
      .named "import_statement" 22 46 none [
        namespaceClause,
        .named "string" 41 46 "source" []],
      .named "expression_statement" 47 50 none [namespaceAccess]]⟩

/-- The files of the module that exports and of a second module. -/
def filesBeside (content : Content) : Store :=
  (Store.empty.write exporting.location
    (.ofTree exporting.source exporting.root)).write importing.location content

/-- The files of both modules. -/
def twoFiles : Store :=
  (Store.empty.write exporting.location
    (.ofTree exporting.source exporting.root)).write
      importing.location (.ofTree importing.source importing.root)

/-- The project of both modules. -/
def twoModules : Project where
  config := ⟨["tsconfig.json"]⟩
  modules := .ofList [exporting.location, importing.location]
  allowJs := false
  baseUrl := none
  paths := []
  pathsBase := .root

theorem firstFault?_exporting :
    Module.firstFault? exporting.root = none := by
  rw [Module.firstFault?_eq]
  decide

theorem firstFault?_importing :
    Module.firstFault? importing.root = none := by
  rw [Module.firstFault?_eq]
  decide

theorem load_exporting_beside (content : Content) :
    Module.load (filesBeside content) exporting.location = .ok exporting :=
  Module.load_eq_ok rfl rfl firstFault?_exporting

theorem load_exporting :
    Module.load twoFiles exporting.location = .ok exporting :=
  load_exporting_beside (.ofTree importing.source importing.root)

theorem load_importing :
    Module.load twoFiles importing.location = .ok importing :=
  Module.load_eq_ok rfl rfl firstFault?_importing

theorem elements_twoModules :
    twoModules.modules.elements =
      [exporting.location, importing.location] := by
  decide

theorem loaded_beside {content : Content} {second : Module}
    (loads : Module.load (filesBeside content) importing.location =
      .ok second) :
    twoModules.loaded (filesBeside content) = [exporting, second] := by
  unfold Project.loaded loadedModules Project.scan
  rw [elements_twoModules]
  simp [load_exporting_beside, loads, Except.toOption]

theorem loaded_twoModules :
    twoModules.loaded twoFiles = [exporting, importing] :=
  loaded_beside load_importing

theorem specifiers_exporting : exporting.specifiers = [] := by
  rw [Module.specifiers, Module.nodes_eq]
  decide

theorem specifiers_importing : importing.specifiers = ["./a", "./a"] := by
  rw [Module.specifiers, Module.nodes_eq]
  decide

/-- A second module with specifiers of the first only comes to no null
character. -/
theorem not_meetsNull_beside {content : Content} {second : Module}
    (loads : Module.load (filesBeside content) importing.location =
      .ok second)
    (only : ∀ specifier ∈ second.specifiers, specifier = "./a") :
    ¬ twoModules.MeetsNull (filesBeside content) := by
  have place : second.location = importing.location :=
    Module.location_of_load loads
  have paths : twoModules.resolver.paths importing.location "./a" =
      [⟨.single, ["a"]⟩] := by
    decide
  apply Project.not_meetsNull_of_paths
  rw [loaded_beside loads]
  intro module loaded specifier listed path tried
  rcases List.mem_pair.mp loaded with rfl | rfl
  · rw [specifiers_exporting] at listed
    cases listed
  · rw [only specifier listed, place, paths, List.mem_singleton] at tried
    subst tried
    decide

theorem not_meetsNull_twoModules : ¬ twoModules.MeetsNull twoFiles := by
  apply not_meetsNull_beside load_importing
  rw [specifiers_importing]
  decide

theorem references_twoModules :
    twoModules.references twoFiles = [
      ⟨importing.location, exporting.location, .ofList ["a"], 1, .importing,
        []⟩,
      ⟨importing.location, exporting.location, .ofList ["b"], 2, .importing,
        []⟩] := by
  unfold Project.references
  rw [loaded_twoModules, List.flatMap_cons, List.flatMap_cons,
    List.flatMap_nil]
  -- The walks are turned into preorders, which can be evaluated.
  unfold Module.references Module.nodeReference? Module.importReference?
    Module.importUsage Module.clausePartUsage Module.namespaceUsage
    Module.aliasUses
  simp only [Module.nodes_eq, Node.visits_eq]
  decide

theorem exports_exporting :
    exporting.exports = [⟨"a", some 1, .specifier⟩, ⟨"b", some 1, .specifier⟩,
      ⟨"c", some 1, .specifier⟩] := by
  have contributed : exporting.contributions =
      [⟨"a", 1, .specifier⟩, ⟨"b", 1, .specifier⟩, ⟨"c", 1, .specifier⟩] := by
    rfl
  have symbols : Export.sort [⟨"a", some 1, .specifier⟩,
      ⟨"b", some 1, .specifier⟩, ⟨"c", some 1, .specifier⟩] = _ :=
    List.mergeSort_of_pairwise (by decide)
  unfold Module.exports
  rw [contributed]
  exact symbols

theorem exports_importing : importing.exports = [] := by
  have contributed : importing.contributions = [] := by rfl
  unfold Module.exports
  rw [contributed]
  exact List.mergeSort_nil

theorem directFindings_twoModules :
    twoModules.directFindings twoFiles (.plain .direct) =
      [⟨.warn, "\x60c\x60 (L1) seems unused, consider deleting", "a.ts",
        some 1⟩] := by
  unfold Project.directFindings Project.directFindingsOn
  rw [elements_twoModules]
  simp only [List.flatMap_cons, List.flatMap_nil, load_exporting,
    load_importing, Module.unusedFindings, exports_exporting,
    exports_importing, Module.occurrences, Module.identifiers, Module.nodes_eq,
    Project.usesName, references_twoModules]
  decide

theorem analyze_direct_twoModules :
    twoModules.analyze twoFiles (.plain .direct) =
      .ok [⟨.warn, "\x60c\x60 (L1) seems unused, consider deleting", "a.ts",
        some 1⟩] := by
  rw [← directFindings_twoModules]
  exact (Project.analyze_direct_exact twoModules twoFiles (.plain .direct) rfl
    rfl rfl).2.2 (by decide) not_meetsNull_twoModules

end ExportAudit
