import ExportAudit.Json.Relaxed.Comment
import ExportAudit.Json.Relaxed.TrailingComma
import ExportAudit.Text.Integer

/-!
# JSON with comments and trailing commas

The dialect of project descriptions.  Comments go first, then trailing commas,
and what is left is read as JSON.
-/

namespace ExportAudit.Json.Relaxed

/-- The limits within which a description is read. -/
def limits : Limits := ⟨990, Text.digitLimit⟩

/-- Read a text of JSON with comments and trailing commas. -/
def read (text : List Char) : Except Fault Json :=
  readWithin limits (stripTrailingCommas (stripComments text))

end ExportAudit.Json.Relaxed
