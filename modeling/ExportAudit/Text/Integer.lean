import ExportAudit.Text.Blank

/-!
# Integers written in decimal

Every Unicode decimal digit counts as a digit.  The standard assigns these
digits in runs of ten, so a digit is known from the zero of its run.

An integer may be padded with blanks, may carry a sign, and may have single
underscores between digits.  The information separators of ASCII are blanks, but
no padding.  The number of digits is limited.
-/

namespace ExportAudit.Text

/-- The code points of the digits zero. -/
def digitZeros : List Nat := [
  0x0030, 0x0660, 0x06f0, 0x07c0, 0x0966, 0x09e6, 0x0a66, 0x0ae6, 0x0b66, 0x0be6, 0x0c66,
  0x0ce6, 0x0d66, 0x0de6, 0x0e50, 0x0ed0, 0x0f20, 0x1040, 0x1090, 0x17e0, 0x1810, 0x1946,
  0x19d0, 0x1a80, 0x1a90, 0x1b50, 0x1bb0, 0x1c40, 0x1c50, 0xa620, 0xa8d0, 0xa900, 0xa9d0,
  0xa9f0, 0xaa50, 0xabf0, 0xff10, 0x104a0, 0x10d30, 0x11066, 0x110f0, 0x11136, 0x111d0,
  0x112f0, 0x11450, 0x114d0, 0x11650, 0x116c0, 0x11730, 0x118e0, 0x11950, 0x11c50, 0x11d50,
  0x11da0, 0x16a60, 0x16ac0, 0x16b50, 0x1d7ce, 0x1d7d8, 0x1d7e2, 0x1d7ec, 0x1d7f6, 0x1e140,
  0x1e2f0, 0x1e950, 0x1fbf0]

/-- The value of a decimal digit. -/
def digitValue? (character : Char) : Option Nat :=
  (digitZeros.find? fun first =>
    first ≤ character.toNat && character.toNat ≤ first + 9).map
      (character.toNat - ·)

/-- Read the digits after a digit: more digits, each preceded by at most one
underscore. -/
def readDigits (value : Nat) : List Char → Option Nat
  | [] => some value
  | '_' :: character :: rest => do
      let digit ← digitValue? character
      readDigits (value * 10 + digit) rest
  | character :: rest => do
      let digit ← digitValue? character
      readDigits (value * 10 + digit) rest

/-- Read a natural number that starts with a digit. -/
def readNatural? : List Char → Option Nat
  | [] => none
  | character :: rest => do
      let digit ← digitValue? character
      readDigits digit rest

/-- Whether a character may surround an integer. -/
def isPadding (character : Char) : Bool :=
  let code := character.toNat
  isBlank character && !(0x1c ≤ code && code ≤ 0x1f)

/-- The text without padding at either end. -/
def withoutPadding (text : List Char) : List Char :=
  ((text.dropWhile isPadding).reverse.dropWhile isPadding).reverse

/-- The most digits that an integer may have. -/
def digitLimit : Nat := 4300

/-- Why a text is no integer. -/
inductive IntegerFault where
  | malformed
  | tooManyDigits (count : Nat)
  deriving DecidableEq

/-- What is said of an integer with too many digits. -/
def tooManyDigitsMessage (count : Nat) : String :=
  "Exceeds the limit (" ++ toString digitLimit ++
    " digits) for integer string conversion: value has " ++ toString count ++
    " digits; use sys.set_int_max_str_digits() to increase the limit"

/-- Whether a character may stand among digits. -/
def isNumeral (character : Char) : Bool :=
  (digitValue? character).isSome || character = '_'

/-- Read a natural number within the limit.  The digits at the start of the text
are judged before what follows them. -/
def readNatural (text : List Char) : Except IntegerFault Nat :=
  let numeral := text.takeWhile isNumeral
  let count := numeral.countP (· ≠ '_')
  match readNatural? numeral with
  | none => .error .malformed
  | some value =>
      if digitLimit < count then .error (.tooManyDigits count)
      else if numeral.length < text.length then .error .malformed
      else .ok value

/-- Read an integer. -/
def readInteger (text : List Char) : Except IntegerFault Int :=
  match withoutPadding text with
  | '-' :: rest => (readNatural rest).map fun value => -(value : Int)
  | '+' :: rest => (readNatural rest).map Int.ofNat
  | digits => (readNatural digits).map Int.ofNat

end ExportAudit.Text
