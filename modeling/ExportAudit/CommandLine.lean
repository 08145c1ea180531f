import ExportAudit.Analysis
import ExportAudit.CommandLine.Arguments
import ExportAudit.Report

/-!
# The command line

`check` reports the findings on every project below a directory; `projects`
lists these projects.  A command answers with an exit code and with the text
that it prints.
-/

namespace ExportAudit.CommandLine

/-- What a command finds around it. -/
structure Surroundings where
  store : Store
  directory : Location
  environment : Environment
  processors : Option Int
  console : Console

/-- What a command leaves behind. -/
structure Outcome where
  exitCode : Nat
  output : String
  deriving DecidableEq

/-- The name of the file of assignments in a directory. -/
def environmentFileName : String := ".env"

/-- The variables that count: those that are set, and those that a file of
assignments adds to them. -/
def Surroundings.extended (surroundings : Surroundings) (file : Location) :
    Except SettingsError Environment :=
  match surroundings.store.file? file with
  | none => .ok surroundings.environment
  | some content => surroundings.environment.extendByFile content.bytes

/-- The settings for a directory. -/
def Surroundings.settings (surroundings : Surroundings) (base : Location)
    (overrides : Overrides) : Except SettingsError Settings := do
  let environment ← surroundings.extended
    (surroundings.directory.child environmentFileName)
  environment.settings surroundings.processors base overrides

/-- The location that a path given to a command denotes, once it is asked for. -/
def Surroundings.locate (surroundings : Surroundings) (path : String) :
    Except Failure Location := do
  let location ← surroundings.directory.locate path
  surroundings.store.query location.path
  return location

/-- The outcome of printing lines with markup. -/
def printed (surroundings : Surroundings) (exitCode : Nat)
    (lines : List (List Char)) : Outcome :=
  ⟨exitCode, String.ofList (surroundings.console.printLines lines)⟩

/-- A message about an error, with markup. -/
def errorLine (message : String) : List Char :=
  styled "bold red" "Error:".toList ++ [' '] ++ message.toList

/-- The outcome of a command on a path that does not exist. -/
def missingPath (surroundings : Surroundings) (base : Location) : Outcome :=
  printed surroundings 1
    [errorLine ("Project path does not exist: " ++
      String.ofList (Markup.escape base.text.toList))]

/-- How many findings have a level. -/
def countLevel (level : Level) (findings : List Diagnostic) : Nat :=
  findings.countP fun finding => finding.level = level

/-- The line that sums up the findings. -/
def summaryLine (findings : List Diagnostic) : List Char :=
  if findings.isEmpty then
    styled "bold green" "✓ Your codebase is clean!".toList
  else
    styled "bold yellow" "Summary:".toList ++
      (" " ++ toString (countLevel .error findings) ++ " error(s), " ++
        toString (countLevel .warn findings) ++ " warning(s)").toList

/-- The text that `check` prints about findings. -/
def checkOutput (console : Console) (json : Bool) (findings : List Diagnostic) :
    List Char :=
  if json then renderRecords findings
  else render console findings ++ console.printLine (summaryLine findings)

/-- The findings on a directory, project by project. -/
def checkFindings (store : Store) (settings : Settings) (base : Location) :
    Except Failure (List Diagnostic) :=
  match Project.discover store base with
  | [] => analyzeBelow store settings base
  | configs => do
      let findings ← configs.mapM (analyzeConfig store settings)
      return findings.flatten

/-- The `check` command. -/
def check (surroundings : Surroundings) (request : CheckRequest) :
    Except Failure Outcome := do
  let base ← surroundings.locate request.path
  if !surroundings.store.contains base then return missingPath surroundings base
  else
    match surroundings.settings base request.overrides with
    | .error error =>
        return printed surroundings 1
          [errorLine (String.ofList (Markup.escape error.message.toList))]
    | .ok settings =>
        let findings ← checkFindings surroundings.store settings base
        let failed := request.strict &&
          findings.any fun finding => finding.level = .error
        return ⟨if failed then 1 else 0, String.ofList
          (checkOutput surroundings.console request.json findings)⟩

/-- The cells of the row for a project. -/
def projectRow (store : Store) (base config : Location) :
    Except Failure (List (List Char)) :=
  let shown := Markup.escape (config.path.display base).toList
  match Project.load store config with
  | .error (.stop failure) => .error failure
  | .error (.unusable _ fault) =>
      .ok [shown, ['-'], styled "red" (Markup.escape fault.reason.toList)]
  | .ok project =>
      .ok [shown, (toString project.modules.size).toList,
        (if project.allowJs then "yes" else "no").toList]

/-- The lines of a table: its title, its columns and its rows. -/
def tableLines (title : String) (columns : List String)
    (rows : List (List (List Char))) : List (List Char) :=
  title.toList :: ((columns.map String.toList) :: rows).map
    fun cells => " | ".toList.intercalate cells

/-- The `projects` command. -/
def projects (surroundings : Surroundings) (path : String) :
    Except Failure Outcome := do
  let base ← surroundings.locate path
  if !surroundings.store.contains base then return missingPath surroundings base
  else
    match Project.discover surroundings.store base with
    | [] =>
        return printed surroundings 0
          [styled "bold yellow"
            "No tsconfig.json or jsconfig.json found.".toList]
    | configs =>
        let rows ← configs.mapM (projectRow surroundings.store base)
        let lines := tableLines "Projects" ["Config", "Modules", "JavaScript"] rows
        return ⟨0, String.ofList (lines.flatMap fun line => line ++ ['\n'])⟩

/-- Run a command. -/
def run (surroundings : Surroundings) : Command → Except Failure Outcome
  | .check request => check surroundings request
  | .projects path => projects surroundings path

end ExportAudit.CommandLine
