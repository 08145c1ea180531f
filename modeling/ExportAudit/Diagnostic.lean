import ExportAudit.Label

/-!
# Diagnostics

A diagnostic is one finding of an analysis.  It may name a file, and a line of
that file.
-/

namespace ExportAudit

/-- How severe a finding is. -/
inductive Level where
  | info
  | warn
  | error
  deriving DecidableEq

namespace Level

/-- The name of a level. -/
def label : Level → String
  | .info => "info"
  | .warn => "warn"
  | .error => "error"

/-- The level with a given name. -/
def ofLabel? (text : String) : Option Level :=
  [info, warn, error].find? (·.label == text)

/-- The level with a given name, or what is wrong with the name. -/
def ofLabel (text : String) : Except UnknownLabel Level :=
  match ofLabel? text with
  | some level => .ok level
  | none => .error (.level text)

end Level

/-- One finding. -/
structure Diagnostic where
  level : Level
  message : String
  file : Option String
  line : Option Int
  deriving DecidableEq

end ExportAudit
