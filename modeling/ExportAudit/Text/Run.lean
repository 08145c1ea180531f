/-!
# Runs of characters

A property of characters is given by runs: pairs of the first and the last code
point of each longest stretch of characters that have it.
-/

namespace ExportAudit.Text

/-- Whether a character belongs to one of the runs. -/
def isInRuns (runs : List (Nat × Nat)) (character : Char) : Bool :=
  runs.any fun run => run.1 ≤ character.toNat && character.toNat ≤ run.2

end ExportAudit.Text
