import ExportAudit.ClassComponent
import ExportAudit.Module.Load
import ExportAudit.Project
import ExportAudit.Reference.Classification
import ExportAudit.Settings
import ExportAudit.UnusedExport
import ExportAudit.UnusedLocal

/-!
# The analysis

An analysis judges each project below a directory on its own.  The modules of a
project are loaded and their references gathered; from the references of all
loaded modules the usage of each module is computed; and each module is judged
from its own text and its usage.

A module that cannot be loaded and a description that is unusable are findings.
-/

namespace ExportAudit

/-- A module of a project, loaded or not. -/
structure Scan where
  location : Location
  outcome : Except LoadError Module

namespace Project

/-- The modules of a project, loaded from a store. -/
def scan (project : Project) (store : Store) : List Scan :=
  project.modules.elements.map fun location =>
    ⟨location, Module.load store location⟩

/-- The rules by which imports in a project are resolved.  No specifier matches
an alias with a lone surrogate. -/
def resolver (project : Project) : Resolver :=
  let paths := project.paths.filterMap fun entry =>
    entry.1.text?.map fun text => (text, entry.2)
  Resolver.build project.modules.elements project.baseUrl paths
    (some project.pathsBase)

end Project

/-- The modules that were loaded. -/
def loadedModules (scans : List Scan) : List Module :=
  scans.filterMap fun scan => scan.outcome.toOption

/-- Locate the specifiers of the loaded modules. -/
def locateSpecifiers (resolver : Resolver) (scans : List Scan) :
    Except Failure Unit :=
  (loadedModules scans).forM fun module =>
    (module.locateReferences resolver).map fun _ => ()

/-- The graph of the loaded modules. -/
def moduleGraph (resolver : Resolver) (scans : List Scan) : Graph Location :=
  let modules := loadedModules scans
  Graph.build (modules.map (·.location))
    (modules.flatMap fun module => module.references resolver)

/-- The finding on a module that could not be loaded. -/
def LoadError.finding (error : LoadError) (file : String) : Diagnostic where
  level := .error
  message := "Failed to parse module: " ++ error.reason
  file := some file
  line := error.line?.map Int.ofNat

/-- The findings on a loaded module. -/
def Module.findings (module : Module) (settings : Settings) (usage : Usage)
    (file : String) : Except Failure (List Diagnostic) := do
  let unusedLocals ←
    if settings.checkUnusedLocals then
      match module.unusedLocalsFinding? file with
      | some finding => pure finding
      | none => throw .splitCharacter
    else pure none
  let component :=
    if settings.checkClassComponents then module.componentFinding? file
    else none
  let identifiers := module.identifiers
  return unusedLocals.toList ++ component.toList ++
    unusedExports module.exports usage (fun name => identifiers.count name) file

/-- The findings on one module of a project. -/
def Scan.findings (scan : Scan) (settings : Settings)
    (index : UsageIndex Location) : Except Failure (List Diagnostic) :=
  let file := settings.displayPath scan.location
  match scan.outcome with
  | .error error => .ok [error.finding file]
  | .ok module => module.findings settings (index.usage scan.location) file

/-- The findings on a project. -/
def Project.analyze (project : Project) (store : Store) (settings : Settings) :
    Except Failure (List Diagnostic) := do
  if settings.jobs ≤ 0 then throw .noWorkers
  let scans := project.scan store
  locateSpecifiers project.resolver scans
  let graph := moduleGraph project.resolver scans
  let index := graph.usageIndex settings.reexportPolicy
  let findings ← scans.mapM fun scan => scan.findings settings index
  return findings.flatten

/-- The finding on a description that is unusable. -/
def ConfigFault.finding (fault : ConfigFault) (file : String) : Diagnostic where
  level := .error
  message := fault.reason
  file := some file
  line := none

/-- The findings on the project of a description. -/
def analyzeConfig (store : Store) (settings : Settings) (config : Location) :
    Except Failure (List Diagnostic) :=
  match Project.load store config with
  | .error (.unusable location fault) =>
      .ok [fault.finding (settings.displayPath location)]
  | .error (.stop failure) => .error failure
  | .ok project => project.analyze store settings

/-- What is said if there is nothing to analyze. -/
def noProjectFinding : Diagnostic where
  level := .info
  message := "No tsconfig.json found. Maybe give TypeScript a try :) " ++
    "https://www.typescriptlang.org/"
  file := none
  line := none

/-- The findings on every project below a directory. -/
def analyzeBelow (store : Store) (settings : Settings) (base : Location) :
    Except Failure (List Diagnostic) := do
  match ← Project.search store base with
  | [] => return [noProjectFinding]
  | configs =>
      let findings ← configs.mapM (analyzeConfig store settings)
      return findings.flatten

/-- The findings on every project below the base of the settings. -/
def analyze (store : Store) (settings : Settings) :
    Except Failure (List Diagnostic) :=
  analyzeBelow store settings settings.base

end ExportAudit
