import ExportAudit.Proofs.Analysis.Sections
import ExportAudit.Proofs.Pattern.Failing
import ExportAudit.Proofs.Project.Reading

/-!
# When an analysis stops

An unusable description costs the analysis no more than the findings on its own
project.  What does stop the analysis as a whole is listed here: what stops the
reading of a description, a listed file or pattern that cannot be asked for, a
specifier that leads to the null character or a lone surrogate, and the removal
of unused names where it splits a character.  In every other case the analysis
returns, and each description contributes the findings on its project or one
error.
-/

namespace ExportAudit

namespace Project

variable {store : Store} {location : Location} {config : Config}

/-! ## Loading a project -/

/-- Loading the project of a description stops the analysis. -/
inductive Stops (store : Store) (location : Location) : Prop where
  | reading (stops : Config.Stops store [] location)
  | listed {config : Config} {file : Location}
      (reads : Config.read store location = .ok config)
      (listed : file ∈ config.files.getD [])
      (long : Fails (store.query file.path))
  | pattern {config : Config} {declared : DeclaredPattern}
      (reads : Config.read store location = .ok config)
      (included : declared ∈ includePatterns location.parent config)
      (stops : Pattern.Stops store
        (Pattern.anchor declared.directory declared.pattern.asInclude))

theorem fails_patternModules {extensions : List String} {root : Location}
    {excluded : List DeclaredPattern} {declared : DeclaredPattern} :
    Fails (patternModules store extensions root excluded declared) ↔
      Pattern.Stops store
        (Pattern.anchor declared.directory declared.pattern.asInclude) := by
  unfold patternModules
  rw [← Pattern.fails_expand]
  exact failsBy_map

theorem fails_collectModules {extensions : List String} {root : Location} :
    Fails (collectModules store extensions root config) ↔
      (∃ file ∈ config.files.getD [], Fails (store.query file.path)) ∨
        ∃ declared ∈ includePatterns root config, Pattern.Stops store
          (Pattern.anchor declared.directory declared.pattern.asInclude) := by
  unfold collectModules
  dsimp only
  rw [fails_bind_iff_or fun _ => fails_bind_iff_or fun _ =>
    iff_of_false (not_failsBy_pure _ _) not_false]
  simp only [fails_forM, fails_mapM, fails_patternModules, or_false]

theorem fails_ofConfig :
    Fails (ofConfig store location config) ↔
      (∃ file ∈ config.files.getD [], Fails (store.query file.path)) ∨
        ∃ declared ∈ includePatterns location.parent config,
          Pattern.Stops store
            (Pattern.anchor declared.directory declared.pattern.asInclude) := by
  unfold ofConfig
  dsimp only
  rw [fails_bind_iff_or fun _ =>
    iff_of_false (not_failsBy_pure _ _) not_false]
  rw [or_false, fails_collectModules]

theorem failsBy_load :
    FailsBy ConfigError.IsStop (load store location) ↔
      Stops store location := by
  unfold load
  rw [failsBy_bind]
  simp only [Config.failsBy_mapError_stop, fails_ofConfig]
  constructor
  · rintro (stopped | ⟨config, reads, ⟨file, listed, long⟩ |
      ⟨declared, included, stops⟩⟩)
    · exact .reading (Config.failsBy_readFrom.mp stopped)
    · exact .listed reads listed long
    · exact .pattern reads included stops
  · intro stops
    cases stops with
    | reading stops => exact .inl (Config.failsBy_readFrom.mpr stops)
    | listed reads listed long => exact .inr ⟨_, reads, .inl ⟨_, listed, long⟩⟩
    | pattern reads included stops =>
        exact .inr ⟨_, reads, .inr ⟨_, included, stops⟩⟩

end Project

/-! ## Analyzing a project -/

/-- The description at a location stops the analysis. -/
inductive StopsAnalysis (store : Store) (settings : Settings)
    (location : Location) : Prop where
  | loading (stops : Project.Stops store location)
  | nullCharacter {project : Project}
      (loads : Project.load store location = .ok project)
      (null : project.MeetsNull store)
  | splitCharacter {project : Project} {module : Module}
      (loads : Project.load store location = .ok project)
      (wanted : settings.checkUnusedLocals = true)
      (loaded : module ∈ project.loaded store)
      (splits : module.SplitsCharacter)

/-- What the description at a location contributes: the findings on its project,
or one error. -/
inductive Contributes (store : Store) (settings : Settings)
    (location : Location) : List Diagnostic → Prop where
  | project {project : Project} {findings : List Diagnostic}
      (loads : Project.load store location = .ok project)
      (found : project.analyze store settings = .ok findings) :
      Contributes store settings location findings
  | unusable {config : Location} {fault : ConfigFault} {error : Diagnostic}
      (faulty : Project.load store location = .error (.unusable config fault))
      (reported : error = fault.finding (settings.displayPath config))
      (level : error.level = .error) :
      Contributes store settings location [error]

variable {store : Store} {settings : Settings} {base location : Location}

theorem stopsAnalysis_iff_of_error {error : ConfigError}
    (unloaded : Project.load store location = .error error) :
    StopsAnalysis store settings location ↔ Project.Stops store location := by
  constructor
  · intro stops
    cases stops with
    | loading stops => exact stops
    | nullCharacter loads =>
        rw [unloaded] at loads
        cases loads
    | splitCharacter loads =>
        rw [unloaded] at loads
        cases loads
  · exact .loading

theorem stopsAnalysis_iff_of_ok {project : Project}
    (loaded : Project.load store location = .ok project) :
    StopsAnalysis store settings location ↔
      project.MeetsNull store ∨
        settings.checkUnusedLocals = true ∧
          ∃ module ∈ project.loaded store, module.SplitsCharacter := by
  constructor
  · intro stops
    cases stops with
    | loading stops =>
        have failed := Project.failsBy_load.mpr stops
        rw [loaded] at failed
        exact absurd failed (not_failsBy_ok _ _)
    | nullCharacter loads null =>
        rw [loaded] at loads
        cases loads
        exact .inl null
    | splitCharacter loads wanted member splits =>
        rw [loaded] at loads
        cases loads
        exact .inr ⟨wanted, _, member, splits⟩
  · intro stops
    rcases stops with null | ⟨wanted, module, member, splits⟩
    · exact .nullCharacter loaded null
    · exact .splitCharacter loaded wanted member splits

theorem fails_analyzeConfig (workers : 0 < settings.jobs) :
    Fails (analyzeConfig store settings location) ↔
      StopsAnalysis store settings location := by
  unfold analyzeConfig
  cases outcome : Project.load store location with
  | error error =>
      have loading :
          FailsBy ConfigError.IsStop (Project.load store location) ↔ _ :=
        Project.failsBy_load
      rw [outcome, failsBy_error] at loading
      rw [stopsAnalysis_iff_of_error outcome, ← loading]
      cases error <;> simp [ConfigError.IsStop]
  | ok project =>
      dsimp only
      rw [Project.fails_analyze workers, stopsAnalysis_iff_of_ok outcome]

/-- Every result on a description is a contribution of one of two kinds. -/
theorem contributes_of_ok {findings : List Diagnostic}
    (analyzed : analyzeConfig store settings location = .ok findings) :
    Contributes store settings location findings := by
  unfold analyzeConfig at analyzed
  split at analyzed
  · next faulty =>
    cases analyzed
    exact .unusable faulty rfl rfl
  · cases analyzed
  · next project loads => exact .project loads analyzed

theorem analyzeBelow_eq :
    analyzeBelow store settings base =
      store.query base.path >>= fun _ =>
        if Project.discover store base = [] then .ok [noProjectFinding]
        else List.flatten <$>
          (Project.discover store base).mapM
            (analyzeConfig store settings) := by
  unfold analyzeBelow Project.search
  rw [bind_assoc]
  apply bind_congr
  intro _
  rw [pure_bind]
  cases Project.discover store base with
  | nil => rfl
  | cons first others => simp

theorem exists_analyzeBelow_eq_ok (workers : 0 < settings.jobs) :
    (∃ findings, analyzeBelow store settings base = .ok findings) ↔
      ¬ Fails (store.query base.path) ∧
        ∀ location ∈ Project.discover store base,
          ¬ StopsAnalysis store settings location := by
  have rest : ∀ asked : Unit, Fails
      (if Project.discover store base = [] then Except.ok [noProjectFinding]
        else List.flatten <$>
          (Project.discover store base).mapM
            (analyzeConfig store settings)) ↔
      ∃ location ∈ Project.discover store base,
        StopsAnalysis store settings location := by
    intro asked
    split
    · next none => simp [none]
    · simp only [failsBy_map, fails_mapM, fails_analyzeConfig workers]
  rw [analyzeBelow_eq, exists_ok_iff, fails_bind_iff_or rest, not_or]
  simp

theorem contributions_of_mapM_eq_ok {locations : List Location}
    {findings : List Diagnostic}
    (analyzed : List.flatten <$>
      locations.mapM (analyzeConfig store settings) = .ok findings) :
    ∃ sections, List.Forall₂ (Contributes store settings) locations sections ∧
      findings = sections.flatten := by
  cases mapped : locations.mapM (analyzeConfig store settings) with
  | error failure =>
      rw [mapped] at analyzed
      cases analyzed
  | ok sections =>
      rw [mapped] at analyzed
      cases analyzed
      have related := mapM_eq_ok.mp mapped
      exact ⟨sections, related.imp fun _ _ => contributes_of_ok, rfl⟩

/-- Two projects, one of which extends a value that cannot be iterated. -/
def extendsTruth : Store :=
  (Store.empty.write ⟨["a", "tsconfig.json"]⟩
    (.ofText "\x7b\"extends\":true\x7d")).write
      ⟨["b", "tsconfig.json"]⟩ (.ofText "\x7b\x7d")

theorem discover_extendsTruth :
    Project.discover extendsTruth .root =
      [⟨["a", "tsconfig.json"]⟩, ⟨["b", "tsconfig.json"]⟩] := by
  decide

theorem stops_extendsTruth :
    Config.Stops extendsTruth [] ⟨["a", "tsconfig.json"]⟩ := by
  have written : Config.text? extendsTruth ⟨["a", "tsconfig.json"]⟩ =
      some "\x7b\"extends\":true\x7d".toList := by
    have found : extendsTruth.file? ⟨["a", "tsconfig.json"]⟩ =
        some (.ofText "\x7b\"extends\":true\x7d") := rfl
    exact Config.text?_ofText found
  have read : Json.Relaxed.read "\x7b\"extends\":true\x7d".toList =
      .ok (.object [("extends", .boolean true)]) := by
    cbv
  exact .notIterable List.not_mem_nil ⟨_, written, read⟩ rfl rfl rfl

end ExportAudit
