import ExportAudit.Association
import ExportAudit.Text.Wide

/-!
# JSON values

Integers are exact.  Every other number is the nearest binary64 number, kept as
its bit pattern.  The members of an object stand in the order of the first
occurrence of their keys.  A text may hold surrogates without their partners.
-/

namespace ExportAudit

/-- A JSON value. -/
inductive Json where
  | null
  | boolean (value : Bool)
  | integer (value : Int)
  | real (bits : UInt64)
  | string (value : WideText)
  | array (items : List Json)
  | object (members : List (WideText × Json))
  deriving Inhabited

namespace Json

/-- Bit pattern of positive infinity. -/
def infinityBits : UInt64 := 0x7ff0000000000000

/-- Bit pattern of the quiet value that is not a number. -/
def notANumberBits : UInt64 := 0x7ff8000000000000

/-- Bit that holds the sign of a binary64 number. -/
def signBit : UInt64 := 0x8000000000000000

/-- Whether a value counts as true where a condition is wanted: null, false,
zero and everything empty count as false. -/
def isTruthy : Json → Bool
  | .null => false
  | .boolean value => value
  | .integer value => value != 0
  | .real bits => bits != 0 && bits != signBit
  | .string value => !value.points.isEmpty
  | .array items => !items.isEmpty
  | .object members => !members.isEmpty

/-- The value of the member with a given key. -/
def member? (key : String) (members : List (WideText × Json)) : Option Json :=
  Association.find? (key : WideText) members

end Json

end ExportAudit
