import ExportAudit.Proofs.Analysis.Direct
import ExportAudit.Proofs.Analysis.Versions
import ExportAudit.Proofs.Graph.Conservation

/-!
# What a module can do to the findings on others

A module that stops loading takes its references with it.  It is reported once
itself, and of the other modules no less is reported than before.

A module that is edited matters only to the modules that can be reached from it
along the edges of the module graph.  On every other module the same is found
before and after the edit.
-/

namespace ExportAudit

variable {project : Project} {place location : Location}
  {before after whole broken : Store} {settings : Settings}

namespace Project

/-- The graph of the loaded modules of a project. -/
def graph (project : Project) (store : Store) : Graph Location :=
  moduleGraph project.resolver (project.scan store)

/-- Where computations of the findings on a module agree, so do the findings that
two runs report about it. -/
theorem Reports.agree {related : List Diagnostic → List Diagnostic → Prop}
    {findings others : List Diagnostic}
    {about aboutOthers : Location → List Diagnostic}
    (reports : project.Reports before settings findings about)
    (reportsOthers : project.Reports after settings others aboutOthers)
    (member : location ∈ project.modules)
    (agree : Agree related (project.findingsOn before settings location)
      (project.findingsOn after settings location)) :
    related (about location) (aboutOthers location) := by
  rw [reports.findingsOn_eq location member,
    reportsOthers.findingsOn_eq location member] at agree
  cases agree with
  | given values => exact values

/-! ## A module that does not load -/

theorem not_stopsAt_of_error {store : Store} {error : LoadError}
    (fails : Module.load store location = .error error) :
    ¬ project.StopsAt store settings location := by
  intro stops
  obtain ⟨module, loads, _⟩ := stops
  rw [fails] at loads
  cases loads

theorem findingsOn_of_error {store : Store} {error : LoadError}
    (fails : Module.load store location = .error error) :
    project.findingsOn store settings location =
      .ok [error.finding (settings.displayPath location)] := by
  simp only [findingsOn, Scan.findings, fails]

theorem location_ne_of_error {store : Store} {error : LoadError}
    (fails : Module.load store place = .error error)
    (loaded : location ∈ project.loadedLocations store) : location ≠ place := by
  intro here
  obtain ⟨module, _, loads⟩ := mem_loadedLocations.mp loaded
  rw [here, fails] at loads
  cases loads

/-- The graph without a module is part of the graph with it. -/
theorem partOf_of_error {error : LoadError}
    (same : project.SameApartFrom place whole broken)
    (fails : Module.load broken place = .error error) :
    Graph.PartOf (fun _ => True) (project.loadedLocations broken)
      (project.references broken) (project.loadedLocations whole)
      (project.references whole) := by
  intro reference kept _
  refine ⟨trivial, ?_⟩
  apply same.symm.kept kept
  · exact location_ne_of_error fails kept.source_mem
  · exact location_ne_of_error fails kept.target_mem

/-- Without a module the others are used no more than with it. -/
theorem usage_le_of_error {policy : ReexportPolicy} {error : LoadError}
    (same : project.SameApartFrom place whole broken)
    (fails : Module.load broken place = .error error) (target : Location) :
    (project.usageIndex broken policy).usage target ≤
      (project.usageIndex whole policy).usage target := by
  rw [usageIndex_eq, usageIndex_eq]
  exact (partOf_of_error same fails).usage_le trivial

theorem findingsOn_agree_of_error {error : LoadError}
    (same : project.SameApartFrom place whole broken)
    (fails : Module.load broken place = .error error)
    (member : location ∈ project.modules) (apart : location ≠ place) :
    Agree AddsWarnings (project.findingsOn whole settings location)
      (project.findingsOn broken settings location) := by
  simp only [findingsOn, same location member apart]
  exact Scan.findings_agree (usage_le_of_error same fails location)

/-- A module that does not load is reported by one error, whenever the analysis
returns.  The analysis returns if it did with any other version of the module.
What was found then about the other modules is still found, in the same order,
and what is found beyond it are warnings about unused exports. -/
theorem broken_module_isolated {error : LoadError}
    (member : place ∈ project.modules)
    (same : project.SameApartFrom place whole broken)
    (fails : Module.load broken place = .error error) :
    (∀ others, project.analyze broken settings = .ok others →
      ∃ aboutOthers, project.Reports broken settings others aboutOthers ∧
        ∃ finding, aboutOthers place = [finding] ∧ finding.level = .error) ∧
    ∀ findings, project.analyze whole settings = .ok findings →
      ∃ others about aboutOthers,
        project.analyze broken settings = .ok others ∧
        project.Reports whole settings findings about ∧
        project.Reports broken settings others aboutOthers ∧
        (∃ finding, aboutOthers place = [finding] ∧ finding.level = .error) ∧
        ∀ location ∈ project.modules, location ≠ place →
          (about location).Sublist (aboutOthers location) ∧
          AddsWarnings (about location) (aboutOthers location) := by
  have reported (others : List Diagnostic)
      (aboutOthers : Location → List Diagnostic)
      (reports : project.Reports broken settings others aboutOthers) :
      ∃ finding, aboutOthers place = [finding] ∧ finding.level = .error := by
    have found := reports.findingsOn_eq place member
    rw [findingsOn_of_error fails, Except.ok.injEq] at found
    exact ⟨_, found.symm, rfl⟩
  constructor
  · intro others analyzed
    obtain ⟨aboutOthers, reports⟩ := exists_reports analyzed
    exact ⟨aboutOthers, reports, reported others aboutOthers reports⟩
  · intro findings analyzed
    obtain ⟨others, analyzedBroken⟩ :=
      (same.exists_analyze_eq_ok member analyzed).mpr
        (not_stopsAt_of_error fails)
    obtain ⟨about, reports⟩ := exists_reports analyzed
    obtain ⟨aboutOthers, reportsBroken⟩ := exists_reports analyzedBroken
    refine ⟨others, about, aboutOthers, analyzedBroken, reports, reportsBroken,
      reported others aboutOthers reportsBroken, ?_⟩
    intro location listed apart
    have adds : AddsWarnings (about location) (aboutOthers location) :=
      reports.agree reportsBroken listed
        (findingsOn_agree_of_error same fails listed apart)
    exact ⟨adds.sublist, adds⟩

end Project

theorem sameApartFrom_beside (content other : Content) :
    twoModules.SameApartFrom importing.location (filesBeside content)
      (filesBeside other) := by
  intro location member apart
  rw [OrderedSet.mem_def, elements_twoModules, List.mem_pair] at member
  cases member with
  | inl first =>
      subst first
      rw [load_exporting_beside, load_exporting_beside]
  | inr second => exact absurd second apart

/-- A file that does not follow the grammar. -/
def brokenContent : Content :=
  .ofTree (Text.Utf8.encode "import") (.named "ERROR" 0 6 none [])

theorem load_broken :
    Module.load (filesBeside brokenContent) importing.location =
      .error (.syntaxFault (some 1)) := by
  have fault : Module.firstFault? brokenContent.tree =
      some brokenContent.tree := by
    rw [Module.firstFault?_eq]
    rfl
  have known : Language.ofSuffix? importing.location.suffix =
      some .typescript := rfl
  have found : (filesBeside brokenContent).find? importing.location =
      some (.file brokenContent) := rfl
  exact Module.load_eq_syntaxFault known found fault

theorem broken_importer_isolated :
    ∃ others about aboutOthers,
      twoModules.analyze (filesBeside brokenContent) (.plain .direct) =
        .ok others ∧
      twoModules.Reports twoFiles (.plain .direct)
        [⟨.warn, "\x60c\x60 (L1) seems unused, consider deleting", "a.ts",
          some 1⟩] about ∧
      twoModules.Reports (filesBeside brokenContent) (.plain .direct) others
        aboutOthers ∧
      (∃ finding, aboutOthers importing.location = [finding] ∧
        finding.level = .error) ∧
      (about exporting.location).Sublist (aboutOthers exporting.location) := by
  have analyzed : twoModules.analyze twoFiles (.plain .direct) =
      .ok (twoModules.directFindings twoFiles (.plain .direct)) :=
    Project.analyze_direct rfl rfl rfl (by decide) not_meetsNull_twoModules
  rw [directFindings_twoModules] at analyzed
  obtain ⟨others, about, aboutOthers, returned, reports, reportsBroken, reported,
      kept⟩ :=
    (Project.broken_module_isolated (by decide)
      (sameApartFrom_beside _ brokenContent) load_broken).2 _ analyzed
  exact ⟨others, about, aboutOthers, returned, reports, reportsBroken, reported,
    (kept exporting.location (by decide) (by decide)).1⟩

namespace Project

/-! ## A module that is edited -/

/-- Modules from which no reference leads out reach no other module. -/
theorem mem_of_reaches {store : Store} {inside : List Location}
    {start : Location}
    (closed : ∀ reference ∈ project.references store,
      reference.source ∈ inside → reference.target ∈ inside)
    (starts : start ∈ inside)
    (reached : (project.graph store).Reaches start location) :
    location ∈ inside := by
  induction reached with
  | refl => exact starts
  | tail _ step ih =>
      obtain ⟨reference, kept, source, target⟩ := Graph.exists_edge_build.mp step
      rw [← target]
      exact closed reference kept.given (source ▸ ih)

/-- What cannot be reached from an edited module is part of the graph after the
edit. -/
theorem partOf_of_not_reaches
    (same : project.SameApartFrom place before after) :
    Graph.PartOf
      (fun module => ¬ (project.graph before).Reaches place module)
      (project.loadedLocations before) (project.references before)
      (project.loadedLocations after) (project.references after) := by
  intro reference kept unreached
  have unreachedSource :
      ¬ (project.graph before).Reaches place reference.source :=
    Graph.not_reaches_source kept unreached
  -- Every module reaches itself, so neither end is the edited module.
  have apart (location : Location)
      (unreached : ¬ (project.graph before).Reaches place location) :
      location ≠ place := by
    intro here
    subst here
    exact unreached .refl
  exact ⟨unreachedSource,
    same.kept kept (apart _ unreachedSource) (apart _ unreached)⟩

theorem usage_le_of_not_reaches {policy : ReexportPolicy}
    (same : project.SameApartFrom place before after)
    (unreached : ¬ (project.graph before).Reaches place location) :
    (project.usageIndex before policy).usage location ≤
      (project.usageIndex after policy).usage location := by
  rw [usageIndex_eq, usageIndex_eq]
  exact (partOf_of_not_reaches same).usage_le unreached

theorem usage_eq_of_not_reaches {policy : ReexportPolicy}
    (same : project.SameApartFrom place before after)
    (unreachedBefore : ¬ (project.graph before).Reaches place location)
    (unreachedAfter : ¬ (project.graph after).Reaches place location) :
    (project.usageIndex before policy).usage location =
      (project.usageIndex after policy).usage location :=
  Usage.le_antisymm (usage_le_of_not_reaches same unreachedBefore)
    (usage_le_of_not_reaches same.symm unreachedAfter)

/-- On a module that cannot be reached from the edited one the same is found. -/
theorem findingsOn_eq_of_not_reaches
    (same : project.SameApartFrom place before after)
    (member : location ∈ project.modules) (apart : location ≠ place)
    (unreachedBefore : ¬ (project.graph before).Reaches place location)
    (unreachedAfter : ¬ (project.graph after).Reaches place location) :
    project.findingsOn before settings location =
      project.findingsOn after settings location := by
  simp only [findingsOn, Scan.findings, same location member apart,
    usage_eq_of_not_reaches same unreachedBefore unreachedAfter]

/-- After an edit of one module the analysis still returns unless that module
stops it.  Then the same is found before and after the edit about every other
module that cannot be reached from the edited one in either version. -/
theorem edited_module_isolated {findings : List Diagnostic}
    (member : place ∈ project.modules)
    (same : project.SameApartFrom place before after)
    (analyzed : project.analyze before settings = .ok findings) :
    ((∃ others, project.analyze after settings = .ok others) ↔
      ¬ project.StopsAt after settings place) ∧
    ∀ others, project.analyze after settings = .ok others →
      ∃ about aboutOthers,
        project.Reports before settings findings about ∧
        project.Reports after settings others aboutOthers ∧
        ∀ location ∈ project.modules, location ≠ place →
          ¬ (project.graph before).Reaches place location →
          ¬ (project.graph after).Reaches place location →
            about location = aboutOthers location := by
  refine ⟨same.exists_analyze_eq_ok member analyzed, ?_⟩
  intro others analyzedAfter
  obtain ⟨about, reports⟩ := exists_reports analyzed
  obtain ⟨aboutOthers, reportsAfter⟩ := exists_reports analyzedAfter
  refine ⟨about, aboutOthers, reports, reportsAfter, ?_⟩
  intro location listed apart unreachedBefore unreachedAfter
  apply reports.agree reportsAfter listed
  rw [findingsOn_eq_of_not_reaches same listed apart unreachedBefore
    unreachedAfter]
  exact .same _

end Project

/-! ### Two importers, one of which is edited -/

/-- A module in a directory of its own. -/
def nested (module : Module) : Module :=
  { module with location := ⟨"y" :: module.location.names⟩ }

/-- The project of two modules and of two others like them in a directory. -/
def fourModules : Project :=
  { twoModules with
    modules := .ofList [exporting.location, importing.location,
      (nested exporting).location, (nested importing).location] }

/-- The files of that project, with some content for the importer in the
directory. -/
def fourFiles (content : Content) : Store :=
  (twoFiles.write (nested exporting).location
    (.ofTree exporting.source exporting.root)).write
      (nested importing).location content

/-- The importer in the directory as it imports, and as it refers to nothing. -/
def importingContent : Content := .ofTree importing.source importing.root

def silentContent : Content :=
  .ofTree (Text.Utf8.encode "") (.named "program" 0 0 none [])

/-- The module that refers to nothing. -/
def silent : Module :=
  ⟨(nested importing).location, silentContent.bytes, .typescript,
    silentContent.tree⟩

theorem elements_fourModules :
    fourModules.modules.elements =
      [exporting.location, importing.location, (nested exporting).location,
        (nested importing).location] := by
  decide

theorem load_fourFiles (content : Content) :
    Module.load (fourFiles content) exporting.location = .ok exporting ∧
    Module.load (fourFiles content) importing.location = .ok importing ∧
    Module.load (fourFiles content) (nested exporting).location =
      .ok (nested exporting) :=
  ⟨Module.load_eq_ok rfl rfl firstFault?_exporting,
    Module.load_eq_ok rfl rfl firstFault?_importing,
    Module.load_eq_ok rfl rfl firstFault?_exporting⟩

theorem load_nested_importing :
    Module.load (fourFiles importingContent) (nested importing).location =
      .ok (nested importing) :=
  Module.load_eq_ok rfl rfl firstFault?_importing

theorem load_silent :
    Module.load (fourFiles silentContent) (nested importing).location =
      .ok silent := by
  have sound : Module.firstFault? silentContent.tree = none := by
    rw [Module.firstFault?_eq]
    rfl
  exact Module.load_eq_ok rfl rfl sound

theorem loaded_fourFiles {content : Content} {last : Module}
    (loads : Module.load (fourFiles content) (nested importing).location =
      .ok last) :
    fourModules.loaded (fourFiles content) =
      [exporting, importing, nested exporting, last] := by
  obtain ⟨first, second, third⟩ := load_fourFiles content
  unfold Project.loaded loadedModules Project.scan
  rw [elements_fourModules]
  simp [first, second, third, loads, Except.toOption]

theorem sameApartFrom_fourFiles (content other : Content) :
    fourModules.SameApartFrom (nested importing).location (fourFiles content)
      (fourFiles other) := by
  intro location member apart
  obtain ⟨first, second, third⟩ := load_fourFiles content
  obtain ⟨firstAlike, secondAlike, thirdAlike⟩ := load_fourFiles other
  rw [OrderedSet.mem_def, elements_fourModules] at member
  simp only [List.mem_cons, List.not_mem_nil, or_false] at member
  rcases member with rfl | rfl | rfl | rfl
  · rw [first, firstAlike]
  · rw [second, secondAlike]
  · rw [third, thirdAlike]
  · exact absurd rfl apart

/-- The references of an importer at some place. -/
def importsOf (source target : Location) : List (Reference Location) :=
  [⟨source, target, .ofList ["a"], 1, .importing, []⟩,
    ⟨source, target, .ofList ["b"], 2, .importing, []⟩]

/-- Each importer refers to the module beside it, and nothing else refers. -/
theorem references_fourModules :
    exporting.references fourModules.resolver = [] ∧
    importing.references fourModules.resolver =
      importsOf importing.location exporting.location ∧
    (nested exporting).references fourModules.resolver = [] ∧
    (nested importing).references fourModules.resolver =
      importsOf (nested importing).location (nested exporting).location ∧
    silent.references fourModules.resolver = [] := by
  unfold Module.references Module.nodeReference? Module.importReference?
    Module.importUsage Module.clausePartUsage Module.namespaceUsage
    Module.aliasUses
  simp only [Module.nodes_eq, Node.visits_eq]
  decide

theorem references_fourFiles :
    fourModules.references (fourFiles importingContent) =
      importsOf importing.location exporting.location ++
        importsOf (nested importing).location (nested exporting).location := by
  obtain ⟨first, second, third, last, _⟩ := references_fourModules
  rw [Project.references, loaded_fourFiles load_nested_importing]
  simp only [List.flatMap_cons, List.flatMap_nil, first, second, third, last,
    List.nil_append, List.append_nil]

theorem references_silentFiles :
    fourModules.references (fourFiles silentContent) =
      importsOf importing.location exporting.location := by
  obtain ⟨first, second, third, _, last⟩ := references_fourModules
  rw [Project.references, loaded_fourFiles load_silent]
  simp only [List.flatMap_cons, List.flatMap_nil, first, second, third, last,
    List.nil_append, List.append_nil]

/-- A last module with specifiers of a module beside it only comes to no null
character. -/
theorem not_meetsNull_fourFiles {content : Content} {last : Module}
    (loads : Module.load (fourFiles content) (nested importing).location =
      .ok last)
    (only : ∀ specifier ∈ last.specifiers, specifier = "./a") :
    ¬ fourModules.MeetsNull (fourFiles content) := by
  have place : last.location = (nested importing).location :=
    Module.location_of_load loads
  apply Project.not_meetsNull_of_paths
  rw [loaded_fourFiles loads]
  have above : ∀ path ∈ fourModules.resolver.paths importing.location "./a",
      path.holdsNull = false := by
    decide
  have below : ∀ path ∈ fourModules.resolver.paths last.location "./a",
      path.holdsNull = false := by
    rw [place]
    decide
  intro module loaded specifier listed
  simp only [List.mem_cons, List.not_mem_nil, or_false] at loaded
  rcases loaded with rfl | rfl | rfl | rfl
  · rw [specifiers_exporting] at listed
    cases listed
  · rw [specifiers_importing] at listed
    have same : specifier = "./a" := by simpa using listed
    exact same ▸ above
  · have none : (nested exporting).specifiers = [] := specifiers_exporting
    rw [none] at listed
    cases listed
  · exact only specifier listed ▸ below

/-- A warning that an export of the first line is not used. -/
def unusedFinding (name file : String) : Diagnostic :=
  ⟨.warn, "\x60" ++ name ++ "\x60 (L1) seems unused, consider deleting", file,
    some 1⟩

theorem directFindingsOn_exporting :
    fourModules.directFindingsOn (fourFiles importingContent) (.plain .direct)
      exporting.location = [unusedFinding "c" "a.ts"] := by
  unfold Project.directFindingsOn
  simp only [(load_fourFiles _).1, Module.unusedFindings, exports_exporting,
    Module.occurrences, Module.identifiers, Module.nodes_eq, Project.usesName,
    references_fourFiles]
  decide

theorem directFindingsOn_nested_exporting :
    fourModules.directFindingsOn (fourFiles importingContent) (.plain .direct)
        (nested exporting).location = [unusedFinding "c" "y/a.ts"] ∧
      fourModules.directFindingsOn (fourFiles silentContent) (.plain .direct)
        (nested exporting).location = [unusedFinding "a" "y/a.ts",
          unusedFinding "b" "y/a.ts", unusedFinding "c" "y/a.ts"] := by
  have exports : (nested exporting).exports = _ := exports_exporting
  unfold Project.directFindingsOn
  simp only [(load_fourFiles _).2.2, Module.unusedFindings, exports,
    Module.occurrences, Module.identifiers, Module.nodes_eq, Project.usesName,
    references_fourFiles, references_silentFiles]
  decide

theorem Project.Reports.eq_directFindingsOn {findings : List Diagnostic}
    {about : Location → List Diagnostic}
    (reports : project.Reports before (.plain .direct) findings about)
    (member : location ∈ project.modules) :
    about location =
      project.directFindingsOn before (.plain .direct) location := by
  have found := reports.findingsOn_eq location member
  rw [Project.findingsOn_direct member rfl rfl rfl] at found
  exact (Except.ok.inj found).symm

/-- What the importer in the directory can reach. -/
def inDirectory : List Location :=
  [(nested importing).location, (nested exporting).location]

theorem reaches_nested_exporting :
    (fourModules.graph (fourFiles importingContent)).Reaches
      (nested importing).location (nested exporting).location := by
  have given : ⟨(nested importing).location, (nested exporting).location,
      .ofList ["a"], 1, .importing, []⟩ ∈
        fourModules.references (fourFiles importingContent) := by
    rw [references_fourFiles]
    decide
  have loaded : fourModules.loadedLocations (fourFiles importingContent) =
      [exporting.location, importing.location, (nested exporting).location,
        (nested importing).location] := by
    rw [Project.loadedLocations, loaded_fourFiles load_nested_importing]
    rfl
  have kept : Reference.Kept
      (fourModules.loadedLocations (fourFiles importingContent)) _ _ := {
    given := given
    source_mem := by
      rw [loaded]
      decide
    target_mem := by
      rw [loaded]
      decide }
  exact .single (Graph.adjacent_of_kept kept)

theorem not_reaches_exporting :
    ¬ (fourModules.graph (fourFiles importingContent)).Reaches
        (nested importing).location exporting.location ∧
      ¬ (fourModules.graph (fourFiles silentContent)).Reaches
        (nested importing).location exporting.location := by
  have outside : exporting.location ∉ inDirectory := by decide
  have starts : (nested importing).location ∈ inDirectory := by decide
  constructor
  · refine fun reached => outside (Project.mem_of_reaches ?_ starts reached)
    rw [references_fourFiles]
    decide
  · refine fun reached => outside (Project.mem_of_reaches ?_ starts reached)
    rw [references_silentFiles]
    decide

theorem analyze_fourFiles {content : Content}
    (fine : ¬ fourModules.MeetsNull (fourFiles content)) :
    fourModules.analyze (fourFiles content) (.plain .direct) =
      .ok (fourModules.directFindings (fourFiles content) (.plain .direct)) :=
  Project.analyze_direct rfl rfl rfl (by decide) fine

/-- When the importer in the directory no longer imports, more is found about the
module that it reached, and the same about the other, of which the exports that
were used still are. -/
theorem edited_importer_isolated :
    ∃ findings others about aboutOthers,
      fourModules.Reports (fourFiles importingContent) (.plain .direct) findings
        about ∧
      fourModules.Reports (fourFiles silentContent) (.plain .direct) others
        aboutOthers ∧
      (fourModules.graph (fourFiles importingContent)).Reaches
        (nested importing).location (nested exporting).location ∧
      about (nested exporting).location = [unusedFinding "c" "y/a.ts"] ∧
      aboutOthers (nested exporting).location = [unusedFinding "a" "y/a.ts",
        unusedFinding "b" "y/a.ts", unusedFinding "c" "y/a.ts"] ∧
      about exporting.location = [unusedFinding "c" "a.ts"] ∧
      aboutOthers exporting.location = [unusedFinding "c" "a.ts"] := by
  have fine : ¬ fourModules.MeetsNull (fourFiles importingContent) := by
    have same : (nested importing).specifiers = _ := specifiers_importing
    apply not_meetsNull_fourFiles load_nested_importing
    rw [same]
    decide
  have fineAfter : ¬ fourModules.MeetsNull (fourFiles silentContent) := by
    have none : silent.specifiers = [] := by
      rw [Module.specifiers, Module.nodes_eq]
      rfl
    apply not_meetsNull_fourFiles load_silent
    rw [none]
    decide
  obtain ⟨about, aboutOthers, reports, reportsAfter, kept⟩ :=
    (Project.edited_module_isolated (by decide)
      (sameApartFrom_fourFiles importingContent silentContent)
      (analyze_fourFiles fine)).2 _ (analyze_fourFiles fineAfter)
  have unedited : about exporting.location = aboutOthers exporting.location :=
    kept exporting.location (by decide) (by decide) not_reaches_exporting.1
      not_reaches_exporting.2
  have exporter : about exporting.location = [unusedFinding "c" "a.ts"] := by
    rw [reports.eq_directFindingsOn (by decide), directFindingsOn_exporting]
  refine ⟨_, _, about, aboutOthers, reports, reportsAfter,
    reaches_nested_exporting, ?_, ?_, exporter, unedited ▸ exporter⟩
  · rw [reports.eq_directFindingsOn (by decide),
      directFindingsOn_nested_exporting.1]
  · rw [reportsAfter.eq_directFindingsOn (by decide),
      directFindingsOn_nested_exporting.2]

end ExportAudit
