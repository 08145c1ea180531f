import ExportAudit.Text.Printable

/-!
# Quoted text

A text is shown between quotes on one line.  Single quotes are used unless the
text has a single quote and no double quote.  A backslash, the chosen quote and
every character that is not printable is escaped.
-/

namespace ExportAudit.Text

/-- A hexadecimal digit in lower case. -/
def hexDigit (value : Nat) : Char :=
  if value < 10 then Char.ofNat (0x30 + value) else Char.ofNat (0x57 + value)

/-- The lowest `width` hexadecimal digits of a number. -/
def hexDigits : (width : Nat) → (value : Nat) → List Char
  | 0, _ => []
  | width + 1, value => hexDigits width (value / 16) ++ [hexDigit (value % 16)]

/-- One character inside quotes. -/
def quoteCharacter (quote character : Char) : List Char :=
  let code := character.toNat
  if character = '\\' then ['\\', '\\']
  else if character = quote then ['\\', quote]
  else if character = '\n' then ['\\', 'n']
  else if character = '\r' then ['\\', 'r']
  else if character = '\t' then ['\\', 't']
  else if isPrintable character then [character]
  else if code < 0x100 then ['\\', 'x'] ++ hexDigits 2 code
  else if code < 0x10000 then ['\\', 'u'] ++ hexDigits 4 code
  else ['\\', 'U'] ++ hexDigits 8 code

/-- The quote that surrounds a text. -/
def quoteFor (text : List Char) : Char :=
  if '\'' ∈ text ∧ '"' ∉ text then '"' else '\''

/-- The text between quotes. -/
def quoted (text : String) : String :=
  let quote := quoteFor text.toList
  String.ofList ([quote] ++ text.toList.flatMap (quoteCharacter quote) ++ [quote])

end ExportAudit.Text
