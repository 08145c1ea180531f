import ExportAudit.CommandLine
import ExportAudit.Proofs.Analysis.Halting
import ExportAudit.Proofs.Report.Fallback
import ExportAudit.Proofs.Report.Records

/-!
# What `check` reports

The `check` command goes through the projects below a directory itself and has
branches of its own for output and for directories without projects.  It
nevertheless reports what the analysis of the directory returns, and its exit
code depends on that and on the settings alone.  What it prints tells the
findings: the records can be read back, and the lines of a report are the
messages of the findings below the names of their files.  A path that does not
exist and settings that are invalid are reported before anything is analyzed:
`checkBy` is the command over an arbitrary analysis, and its outcome is then the
same for all of them.
-/

namespace ExportAudit.CommandLine

/-- An analysis of a directory. -/
abbrev DirectoryAnalysis :=
  Store → Settings → Location → Except Failure (List Diagnostic)

/-- The `check` command over some analysis of a directory. -/
def checkBy (analysis : DirectoryAnalysis) (surroundings : Surroundings)
    (request : CheckRequest) : Except Failure Outcome := do
  let base ← surroundings.locate request.path
  if !surroundings.store.contains base then return missingPath surroundings base
  else
    match surroundings.settings base request.overrides with
    | .error error =>
        return printed surroundings 1
          [errorLine (String.ofList (Markup.escape error.message.toList))]
    | .ok settings =>
        let findings ← analysis surroundings.store settings base
        let failed := request.strict &&
          findings.any fun finding => finding.level = .error
        return ⟨if failed then 1 else 0, String.ofList
          (checkOutput surroundings.console request.json findings)⟩

/-- The analysis of the place that a path denotes. -/
def analyzeAt (surroundings : Surroundings) (path : String)
    (settings : Settings) : Except Failure (List Diagnostic) := do
  let base ← surroundings.directory.locate path
  analyzeBelow surroundings.store settings base

variable {surroundings : Surroundings} {request : CheckRequest}
  {base : Location}

/-! ## The same analysis -/

/-- A path that can be located denotes a place that can be asked for. -/
theorem locate_eq_ok {path : String} :
    surroundings.locate path = .ok base ↔
      surroundings.directory.locate path = .ok base ∧
        surroundings.store.query base.path = .ok () := by
  unfold Surroundings.locate
  simp only [bind_eq_ok]
  constructor
  · intro located
    obtain ⟨location, found, _, asked, same⟩ := located
    cases same
    exact ⟨found, asked⟩
  · intro located
    exact ⟨base, located.1, (), located.2, rfl⟩

/-- A path that cannot be located stops the analysis of what it denotes under all
settings. -/
theorem analyzeAt_of_unlocated {path : String} {failure : Failure}
    (unlocated : surroundings.locate path = .error failure)
    (settings : Settings) :
    analyzeAt surroundings path settings = .error failure := by
  unfold Surroundings.locate at unlocated
  unfold analyzeAt
  cases found : surroundings.directory.locate path with
  | error other =>
      rw [found] at unlocated
      cases unlocated
      rfl
  | ok base =>
      rw [found, ok_bind] at unlocated
      rw [ok_bind, analyzeBelow_eq]
      cases asked : surroundings.store.query base.path with
      | error other =>
          rw [asked] at unlocated
          cases unlocated
          rfl
      | ok _ =>
          rw [asked] at unlocated
          cases unlocated

/-- Going through the projects below a directory that can be asked for finds
what the analysis of the directory finds. -/
theorem checkFindings_eq {store : Store} {settings : Settings}
    (asked : store.query base.path = .ok ()) :
    checkFindings store settings base = analyzeBelow store settings base := by
  unfold checkFindings
  split
  · rfl
  · next configs some =>
    have analyzed := @analyzeBelow_eq store settings base
    rw [asked, ok_bind, if_neg some] at analyzed
    rw [analyzed, bind_pure_comp]

/-- The `check` command is that over the analysis of directories. -/
theorem check_eq_checkBy (surroundings : Surroundings)
    (request : CheckRequest) :
    check surroundings request =
      checkBy analyzeBelow surroundings request := by
  unfold check checkBy
  cases located : surroundings.locate request.path with
  | error failure => rfl
  | ok base =>
      rw [ok_bind, ok_bind]
      have asked := (locate_eq_ok.mp located).2
      split
      · rfl
      · cases surroundings.settings base request.overrides with
        | error error => rfl
        | ok settings =>
            change checkFindings _ _ _ >>= _ = analyzeBelow _ _ _ >>= _
            rw [checkFindings_eq asked]

/-! ## Outcomes -/

theorem checkBy_of_missing (analysis : DirectoryAnalysis)
    (located : surroundings.locate request.path = .ok base)
    (missing : surroundings.store.contains base = false) :
    checkBy analysis surroundings request =
      .ok (missingPath surroundings base) := by
  rw [checkBy, located, ok_bind, missing]
  rfl

theorem checkBy_of_invalid (analysis : DirectoryAnalysis)
    {error : SettingsError}
    (located : surroundings.locate request.path = .ok base)
    (present : surroundings.store.contains base = true)
    (invalid : surroundings.settings base request.overrides = .error error) :
    checkBy analysis surroundings request =
      .ok (printed surroundings 1
        [errorLine (String.ofList (Markup.escape error.message.toList))]) := by
  rw [checkBy, located, ok_bind, present, invalid]
  rfl

/-- What `check` leaves behind once findings are there. -/
def reported (surroundings : Surroundings) (request : CheckRequest)
    (findings : List Diagnostic) : Outcome :=
  ⟨if request.strict && findings.any (fun finding => finding.level = .error)
    then 1 else 0,
    String.ofList (checkOutput surroundings.console request.json findings)⟩

theorem checkBy_of_valid (analysis : DirectoryAnalysis) {settings : Settings}
    (located : surroundings.locate request.path = .ok base)
    (present : surroundings.store.contains base = true)
    (valid : surroundings.settings base request.overrides = .ok settings) :
    checkBy analysis surroundings request =
      reported surroundings request <$>
        analysis surroundings.store settings base := by
  rw [checkBy, located, ok_bind, present, valid]
  exact bind_pure_comp ..

/-- Why `check` exits with code 1. -/
inductive ExitsWithOne (surroundings : Surroundings) (request : CheckRequest)
    (base : Location) : Prop where
  | missing (missing : surroundings.store.contains base = false) :
      ExitsWithOne surroundings request base
  | invalid {error : SettingsError}
      (invalid : surroundings.settings base request.overrides = .error error) :
      ExitsWithOne surroundings request base
  | strict {settings : Settings} {findings : List Diagnostic}
      {finding : Diagnostic} (wanted : request.strict = true)
      (valid : surroundings.settings base request.overrides = .ok settings)
      (analyzed : analyzeBelow surroundings.store settings base = .ok findings)
      (found : finding ∈ findings) (level : finding.level = .error) :
      ExitsWithOne surroundings request base

theorem exitCode_reported {findings : List Diagnostic} :
    (reported surroundings request findings).exitCode = 1 ↔
      request.strict = true ∧ ∃ finding ∈ findings, finding.level = .error := by
  simp [reported]

theorem exitCode_reported_cases (findings : List Diagnostic) :
    (reported surroundings request findings).exitCode = 0 ∨
      (reported surroundings request findings).exitCode = 1 := by
  unfold reported
  split
  · exact .inr rfl
  · exact .inl rfl

/-- Findings on a directory that exists make `check` exit with 1 if errors among
them are to do so. -/
theorem exitCode_reported_iff {settings : Settings}
    {findings : List Diagnostic}
    (present : surroundings.store.contains base = true)
    (valid : surroundings.settings base request.overrides = .ok settings)
    (analyzed : analyzeBelow surroundings.store settings base =
      .ok findings) :
    (reported surroundings request findings).exitCode = 1 ↔
      ExitsWithOne surroundings request base := by
  rw [exitCode_reported]
  constructor
  · intro failed
    obtain ⟨wanted, finding, found, level⟩ := failed
    exact .strict wanted valid analyzed found level
  · intro exits
    cases exits with
    | missing missing =>
        rw [present] at missing
        cases missing
    | invalid invalid =>
        rw [valid] at invalid
        cases invalid
    | strict wanted also again found level =>
        rw [valid] at also
        cases also
        rw [analyzed] at again
        cases again
        exact ⟨wanted, _, found, level⟩

/-- A printed text tells findings, in order.  As records it is an array from
which they are read; as a report it lists their messages under the files they
name, and sums them up. -/
structure Tells (console : Console) (asRecords : Bool)
    (findings : List Diagnostic) (output : String) : Prop where
  records : asRecords = true → ∃ limits values,
    Json.readWithin limits output.toList = .ok (.array values) ∧
      values.mapM Diagnostic.ofJson? = some findings
  report : asRecords = false → console.Conveys findings →
    output.toList = (reportTexts findings).flatMap console.printText ++
      console.printLine (summaryLine findings)

theorem tells_checkOutput (console : Console) (asRecords : Bool)
    (findings : List Diagnostic) :
    Tells console asRecords findings
      (String.ofList (checkOutput console asRecords findings)) := by
  constructor
  · intro wanted
    obtain ⟨digits, few⟩ := exists_digits findings
    refine ⟨⟨2, digits⟩, _, ?_, mapM_ofJson?_toJson findings⟩
    rw [checkOutput, if_pos wanted, String.toList_ofList]
    exact readWithin_renderRecords few
  · intro unwanted conveys
    rw [checkOutput, if_neg (Bool.not_eq_true _ ▸ unwanted),
      String.toList_ofList, render_eq_printTexts conveys]

/-- What `check` leaves behind, and how it came about. -/
structure Reports (surroundings : Surroundings) (request : CheckRequest)
    (base : Location) (outcome : Outcome) : Prop where
  exitCode : outcome.exitCode = 1 ↔ ExitsWithOne surroundings request base
  exitCode_cases : outcome.exitCode = 0 ∨ outcome.exitCode = 1
  findings : surroundings.store.contains base = true →
    ∀ settings, surroundings.settings base request.overrides = .ok settings →
      ∃ findings, analyzeBelow surroundings.store settings base = .ok findings ∧
        (Project.discover surroundings.store base = [] →
          findings = [noProjectFinding]) ∧
        outcome.output = String.ofList
          (if request.json then renderRecords findings
            else render surroundings.console findings ++
              surroundings.console.printLine (summaryLine findings)) ∧
        Tells surroundings.console request.json findings outcome.output
  unanalyzed : surroundings.store.contains base = false ∨
      (∃ error, surroundings.settings base request.overrides =
        .error error) →
    ∀ analysis, checkBy analysis surroundings request = .ok outcome

theorem findings_of_no_project {store : Store} {settings : Settings}
    {findings : List Diagnostic}
    (analyzed : analyzeBelow store settings base = .ok findings)
    (none : Project.discover store base = []) :
    findings = [noProjectFinding] := by
  rw [analyzeBelow_eq, if_pos none, bind_eq_ok] at analyzed
  obtain ⟨_, _, same⟩ := analyzed
  cases same
  rfl

theorem reports_missing
    (located : surroundings.locate request.path = .ok base)
    (missing : surroundings.store.contains base = false) :
    Reports surroundings request base (missingPath surroundings base) where
  exitCode := ⟨fun _ => .missing missing, fun _ => rfl⟩
  exitCode_cases := .inr rfl
  findings := by
    intro present
    rw [missing] at present
    cases present
  unanalyzed := fun _ analysis => checkBy_of_missing analysis located missing

theorem reports_invalid {error : SettingsError}
    (located : surroundings.locate request.path = .ok base)
    (present : surroundings.store.contains base = true)
    (invalid : surroundings.settings base request.overrides = .error error) :
    Reports surroundings request base (printed surroundings 1
      [errorLine (String.ofList (Markup.escape error.message.toList))]) where
  exitCode := ⟨fun _ => .invalid invalid, fun _ => rfl⟩
  exitCode_cases := .inr rfl
  findings := by
    intro _ settings valid
    rw [invalid] at valid
    cases valid
  unanalyzed := fun _ analysis =>
    checkBy_of_invalid analysis located present invalid

theorem reports_reported {settings : Settings} {findings : List Diagnostic}
    (present : surroundings.store.contains base = true)
    (valid : surroundings.settings base request.overrides = .ok settings)
    (analyzed : analyzeBelow surroundings.store settings base =
      .ok findings) :
    Reports surroundings request base
      (reported surroundings request findings) where
  exitCode := exitCode_reported_iff present valid analyzed
  exitCode_cases := exitCode_reported_cases findings
  findings := by
    intro _ other also
    rw [valid] at also
    cases also
    exact ⟨findings, analyzed, findings_of_no_project analyzed, rfl,
      tells_checkOutput _ _ _⟩
  unanalyzed := by
    intro stopped
    rcases stopped with missing | ⟨error, invalid⟩
    · rw [present] at missing
      cases missing
    · rw [valid] at invalid
      cases invalid

/-- A directory whose description is no JSON. -/
def malformedConfig : Surroundings where
  store := Store.empty.write ⟨["tsconfig.json"]⟩ (.ofText "x")
  directory := .root
  environment := []
  processors := some 4
  console := ⟨false⟩

/-- A request for records in which errors count. -/
def strictRecords : CheckRequest :=
  ⟨".", ⟨none, none, none, none⟩, true, true⟩

/-- A request for a report in which errors do not count. -/
def plainReport : CheckRequest :=
  ⟨".", ⟨none, none, none, none⟩, false, false⟩

/-- The settings for that directory. -/
def malformedSettings : Settings := ⟨.root, .direct, 4, true, true⟩

/-- The error on the description. -/
def malformedFinding : Diagnostic :=
  ⟨.error, "Not valid JSON", some "tsconfig.json", none⟩

theorem load_malformedConfig :
    Project.load malformedConfig.store ⟨["tsconfig.json"]⟩ =
      .error (.unusable ⟨["tsconfig.json"]⟩ .malformed) := by
  have found : malformedConfig.store.file? ⟨["tsconfig.json"]⟩ =
      some (.ofText "x") := rfl
  have members : Config.readMembers ⟨["tsconfig.json"]⟩ (.ofText "x") =
      .error (.unusable ⟨["tsconfig.json"]⟩ .malformed) := by
    have malformed : Json.Relaxed.read (Text.unifyLineBreaks "x".toList) =
        .error .malformed := by
      cbv
    rw [Config.readMembers, Content.ofText, Content.ofTree,
      Text.Utf8.decode?_encode]
    simp only [malformed]
  rw [Project.load, Config.read,
    Config.readFrom_of_found List.not_mem_nil found, members]
  rfl

theorem analyzeBelow_malformedConfig :
    analyzeBelow malformedConfig.store malformedSettings .root =
      .ok [malformedFinding] := by
  have discovered : Project.discover malformedConfig.store .root =
      [⟨["tsconfig.json"]⟩] := by
    decide
  have asked : malformedConfig.store.query Location.root.path = .ok () := rfl
  have analyzed : analyzeConfig malformedConfig.store malformedSettings
      ⟨["tsconfig.json"]⟩ = .ok [malformedFinding] := by
    rw [analyzeConfig, load_malformedConfig]
    decide
  rw [analyzeBelow_eq, asked, discovered, ok_bind,
    if_neg (List.cons_ne_nil _ _), List.mapM_cons, analyzed]
  rfl

theorem locate_malformedConfig :
    malformedConfig.locate "." = .ok .root := rfl

theorem settings_malformedConfig :
    malformedConfig.settings .root ⟨none, none, none, none⟩ =
      .ok malformedSettings := by
  rfl

theorem returns_malformedConfig :
    ∀ request ∈ [strictRecords, plainReport], ∀ base settings,
      malformedConfig.locate request.path = .ok base →
      malformedConfig.store.contains base = true →
      malformedConfig.settings base request.overrides = .ok settings →
      ∃ findings, analyzeBelow malformedConfig.store settings base =
        .ok findings := by
  intro request member base settings place _ settled
  rcases List.mem_pair.mp member with rfl | rfl <;>
  · cases locate_malformedConfig.symm.trans place
    cases settings_malformedConfig.symm.trans settled
    exact ⟨_, analyzeBelow_malformedConfig⟩

theorem conveys_malformedFinding :
    Console.Conveys ⟨false⟩ [malformedFinding] where
  ends := List.forall_mem_singleton.mpr ⟨by decide, by decide⟩
  keeps := by
    intro replaces
    cases replaces

theorem printLine_summary :
    Console.printLine ⟨false⟩ (summaryLine [malformedFinding]) =
      "Summary: 1 error(s), 0 warning(s)\n".toList := by
  cbv

end ExportAudit.CommandLine
