import ExportAudit.Diagnostic
import ExportAudit.Json.Value
import ExportAudit.Text.Quoted

/-!
# Records as JSON

A record is an object whose members are texts and integers.  A list of records
is printed as a JSON array, indented by two spaces for each level.  Only
quotes, backslashes and control characters are escaped in texts.
-/

namespace ExportAudit

/-- A member of a record. -/
inductive Scalar where
  | text (value : String)
  | integer (value : Int)
  deriving DecidableEq

/-- Named members, in order. -/
abbrev Record := List (String × Scalar)

namespace Scalar

/-- The JSON value of a member. -/
def toJson : Scalar → Json
  | .text value => .string value
  | .integer value => .integer value

/-- A character of a text as JSON writes it. -/
def literalCharacter (character : Char) : List Char :=
  if character = '"' then ['\\', '"']
  else if character = '\\' then ['\\', '\\']
  else if character = '\n' then ['\\', 'n']
  else if character = '\r' then ['\\', 'r']
  else if character = '\t' then ['\\', 't']
  else if character = '\x08' then ['\\', 'b']
  else if character = '\x0c' then ['\\', 'f']
  else if character.toNat < 0x20 then
    ['\\', 'u'] ++ Text.hexDigits 4 character.toNat
  else [character]

/-- A text as JSON writes it. -/
def literal (text : String) : List Char :=
  ['"'] ++ text.toList.flatMap literalCharacter ++ ['"']

/-- A member as JSON writes it. -/
def print : Scalar → List Char
  | .text value => literal value
  | .integer value => (toString value).toList

end Scalar

namespace Record

/-- The JSON value of a record. -/
def toJson (record : Record) : Json :=
  .object (record.map fun entry => (entry.1, entry.2.toJson))

/-- Items between brackets, each on a line of its own with an indentation;
without items, the brackets alone. -/
def printBlock (opening closing : Char) (indentation : Nat)
    (items : List (List Char)) : List Char :=
  if items.isEmpty then [opening, closing]
  else
    let margin := '\n' :: List.replicate (indentation + 2) ' '
    [opening] ++ margin ++ List.intercalate (',' :: margin) items ++
      '\n' :: List.replicate indentation ' ' ++ [closing]

/-- A record as JSON writes it inside an array. -/
def print (record : Record) : List Char :=
  printBlock '\x7b' '\x7d' 2
    (record.map fun entry =>
      Scalar.literal entry.1 ++ [':', ' '] ++ entry.2.print)

/-- Records as a JSON array. -/
def printAll (records : List Record) : List Char :=
  printBlock '[' ']' 0 (records.map print)

end Record

/-- The record of a diagnostic; absent parts are left out. -/
def Diagnostic.record (diagnostic : Diagnostic) : Record :=
  [("level", .text diagnostic.level.label),
    ("message", .text diagnostic.message)] ++
    (diagnostic.file.map fun file => ("file", Scalar.text file)).toList ++
    (diagnostic.line.map fun line => ("line", Scalar.integer line)).toList

end ExportAudit
