import ExportAudit.Json.Reader

/-!
# Trailing commas in JSON

A comma that only space separates from a closing bracket or brace is dropped,
unless it stands inside a string literal.
-/

namespace ExportAudit.Json.Relaxed

/-- Whether the next character after space closes an array or an object. -/
def closesNext (text : List Char) : Bool :=
  match skipSpace text with
  | ']' :: _ => true
  | '}' :: _ => true
  | _ => false

/-- Drop the trailing commas of a text; `inLiteral` says whether the text
starts inside a string literal. -/
def withoutTrailingCommas : (inLiteral : Bool) → List Char → List Char
  | _, [] => []
  | true, '\\' :: character :: rest =>
      '\\' :: character :: withoutTrailingCommas true rest
  | true, '"' :: rest => '"' :: withoutTrailingCommas false rest
  | true, character :: rest => character :: withoutTrailingCommas true rest
  | false, '"' :: rest => '"' :: withoutTrailingCommas true rest
  | false, ',' :: rest =>
      if closesNext rest then withoutTrailingCommas false rest
      else ',' :: withoutTrailingCommas false rest
  | false, character :: rest => character :: withoutTrailingCommas false rest

/-- Drop the trailing commas of a text. -/
def stripTrailingCommas (text : List Char) : List Char :=
  withoutTrailingCommas false text

end ExportAudit.Json.Relaxed
