import ExportAudit.Association
import ExportAudit.Diagnostic

/-!
# Diagnostics by file

Diagnostics are grouped by file in the order in which files first occur.
Diagnostics without a file form a general group, which comes first.
-/

namespace ExportAudit

/-- The heading of diagnostics without a file. -/
def generalHeading : String := "General"

/-- The heading under which a diagnostic is listed. -/
def Diagnostic.heading (diagnostic : Diagnostic) : String :=
  match diagnostic.file with
  | some "" => generalHeading
  | some file => file
  | none => generalHeading

/-- The diagnostics under each heading. -/
def groupByFile (diagnostics : List Diagnostic) :
    List (String × List Diagnostic) :=
  (diagnostics.foldl (fun groups diagnostic =>
    Association.update diagnostic.heading [] (· ++ [diagnostic]) groups)
    [(generalHeading, [])]).filter fun group => !group.2.isEmpty

end ExportAudit
