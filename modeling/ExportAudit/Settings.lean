import ExportAudit.Graph.UsageIndex
import ExportAudit.Path

/-!
# Settings of an analysis

The settings say where projects are searched, how re-exports count, how many
workers share the work, and which findings besides unused exports are wanted.
-/

namespace ExportAudit

/-- The settings of one analysis. -/
structure Settings where
  base : Location
  reexportPolicy : ReexportPolicy
  jobs : Int
  checkUnusedLocals : Bool
  checkClassComponents : Bool

/-- How a path is shown: relative to a directory if it lies at or below it, and
as a whole otherwise. -/
def Path.display (path : Path) (directory : Location) : String :=
  match path.relativeTo? directory.path with
  | some names => Path.relativeText names
  | none => path.text

/-- How a location is shown in findings. -/
def Settings.displayPath (settings : Settings) (location : Location) : String :=
  location.path.display settings.base

end ExportAudit
