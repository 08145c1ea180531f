import ExportAudit.Diagnostic
import ExportAudit.Export
import ExportAudit.Usage

/-!
# Unused exports

An export is reported if the usage of its module does not contain its name.
The report tells whether the name occurs in its own module more than once.
-/

namespace ExportAudit

/-- What is said about an unused export. -/
def Export.unusedMessage (symbol : Export) (usedInModule : Bool) : String :=
  let place :=
    match symbol.line with
    | some line => " (L" ++ toString line ++ ")"
    | none => ""
  let advice :=
    if usedInModule then
      " seems to be only used in module, remove export statement"
    else " seems unused, consider deleting"
  "\x60" ++ symbol.name ++ "\x60" ++ place ++ advice

/-- The findings on the exports of a module: one for each export that is not
used, in order. -/
def unusedExports (exports : List Export) (usage : Usage)
    (occurrences : String → Nat) (file : String) : List Diagnostic :=
  (exports.filter fun symbol => decide (¬ symbol.name ∈ usage)).map
    fun symbol => {
      level := .warn
      message := symbol.unusedMessage (occurrences symbol.name > 1)
      file := some file
      line := symbol.line }

end ExportAudit
