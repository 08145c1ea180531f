import ExportAudit.Json.Binary64

/-!
# Reading JSON

Each reader takes a text and gives what it read together with the rest of the
text.  Besides the standard's grammar three words are numbers: `NaN`,
`Infinity` and `-Infinity`.  Two escapes that form a surrogate pair denote one
character; a surrogate without its partner is kept as it is.

How deep arrays and objects nest and how many digits an integer has can be
limited.  The first fault of a text is the one that counts.
-/

namespace ExportAudit.Json

/-- Why a text is not read. -/
inductive Fault where
  | malformed
  | tooDeep
  | tooManyDigits (count : Nat)
  deriving DecidableEq

/-- How many arrays and objects may stand inside one another, and how many
digits an integer may have. -/
structure Limits where
  nesting : Nat
  digits : Nat

/-- What was read, or the fault that nothing could be. -/
def orMalformed : Option α → Except Fault α
  | some result => .ok result
  | none => .error .malformed

/-- The characters that may stand between tokens. -/
def isSpace (character : Char) : Bool :=
  character = ' ' || character = '\t' || character = '\n' || character = '\r'

/-- The text without leading space. -/
def skipSpace (text : List Char) : List Char := text.dropWhile isSpace

/-- Whether a character is one of the digits of the grammar. -/
def isDigit (character : Char) : Bool := '0' ≤ character && character ≤ '9'

/-- The number that a sequence of digits denotes. -/
def decimalValue (digits : List Char) : Nat :=
  digits.foldl (fun value digit => value * 10 + (digit.toNat - '0'.toNat)) 0

/-- The value of a hexadecimal digit. -/
def hexValue? (character : Char) : Option Nat :=
  if isDigit character then some (character.toNat - '0'.toNat)
  else if 'a' ≤ character && character ≤ 'f' then
    some (character.toNat - 'a'.toNat + 10)
  else if 'A' ≤ character && character ≤ 'F' then
    some (character.toNat - 'A'.toNat + 10)
  else none

/-- The code unit that four hexadecimal digits denote. -/
def codeUnit? (first second third fourth : Char) : Option Nat := do
  let first ← hexValue? first
  let second ← hexValue? second
  let third ← hexValue? third
  let fourth ← hexValue? fourth
  return ((first * 16 + second) * 16 + third) * 16 + fourth

/-- Whether a code unit opens a surrogate pair. -/
def isHighSurrogate (unit : Nat) : Bool := 0xd800 ≤ unit && unit < 0xdc00

/-- Whether a code unit closes a surrogate pair. -/
def isLowSurrogate (unit : Nat) : Bool := 0xdc00 ≤ unit && unit < 0xe000

/-- What a code unit that stands alone denotes. -/
def unitPoint (unit : Nat) : Point :=
  if isHighSurrogate unit || isLowSurrogate unit then .surrogate unit
  else .character (Char.ofNat unit)

/-- The character of a surrogate pair. -/
def pairCharacter (high low : Nat) : Char :=
  Char.ofNat (0x10000 + (high - 0xd800) * 0x400 + (low - 0xdc00))

/-- The character that a one-letter escape denotes. -/
def escaped? : Char → Option Char
  | '"' => some '"'
  | '\\' => some '\\'
  | '/' => some '/'
  | 'b' => some '\x08'
  | 'f' => some '\x0c'
  | 'n' => some '\n'
  | 'r' => some '\r'
  | 't' => some '\t'
  | _ => none

/-- One item of a string literal: a character, or a code unit written as a
numeric escape. -/
inductive LiteralItem where
  | character (value : Char)
  | codeUnit (value : Nat)

/-- The text of a string literal: adjacent code units that form a surrogate
pair denote one character. -/
def LiteralItem.join : List LiteralItem → List Point
  | [] => []
  | .codeUnit high :: .codeUnit low :: rest =>
      if isHighSurrogate high && isLowSurrogate low then
        .character (pairCharacter high low) :: join rest
      else unitPoint high :: join (.codeUnit low :: rest)
  | .codeUnit value :: rest => unitPoint value :: join rest
  | .character value :: rest => .character value :: join rest

/-- Read the items of a string literal, up to and including its closing
quote. -/
def readLiteralItems : List Char → Option (List LiteralItem × List Char)
  | [] => none
  | '"' :: rest => some ([], rest)
  | '\\' :: 'u' :: first :: second :: third :: fourth :: rest => do
      let unit ← codeUnit? first second third fourth
      let (items, rest) ← readLiteralItems rest
      return (.codeUnit unit :: items, rest)
  | '\\' :: letter :: rest => do
      let character ← escaped? letter
      let (items, rest) ← readLiteralItems rest
      return (.character character :: items, rest)
  | character :: rest =>
      if character.toNat < 0x20 || character = '\\' then none
      else do
        let (items, rest) ← readLiteralItems rest
        return (.character character :: items, rest)

/-- Read the rest of a string literal, up to and including its closing quote. -/
def readLiteral (text : List Char) : Option (WideText × List Char) := do
  let (items, rest) ← readLiteralItems text
  return (⟨LiteralItem.join items⟩, rest)

/-- The integer part at the start of a text: a zero, or digits that do not
start with one. -/
def splitIntegerPart : List Char → Option (List Char × List Char)
  | '0' :: rest => some (['0'], rest)
  | text =>
      let digits := text.takeWhile isDigit
      if digits.isEmpty then none else some (digits, text.dropWhile isDigit)

/-- The digits of the fraction at the start of a text, empty if there is none. -/
def splitFraction : List Char → List Char × List Char
  | '.' :: rest =>
      let digits := rest.takeWhile isDigit
      if digits.isEmpty then ([], '.' :: rest)
      else (digits, rest.dropWhile isDigit)
  | text => ([], text)

/-- The exponent at the start of a text, if there is one. -/
def splitExponent (text : List Char) : Option Int × List Char :=
  match text with
  | letter :: rest =>
      if letter = 'e' || letter = 'E' then
        let negative := rest.head? = some '-'
        let signed := negative || rest.head? = some '+'
        let body := if signed then rest.drop 1 else rest
        let digits := body.takeWhile isDigit
        if digits.isEmpty then (none, text)
        else
          let size : Int := decimalValue digits
          (some (if negative then -size else size), body.dropWhile isDigit)
      else (none, text)
  | [] => (none, text)

/-- The number with a sign bit. -/
def signedReal (negative : Bool) (bits : UInt64) : Json :=
  .real (if negative then bits ||| signBit else bits)

/-- Read a number without its sign. -/
def readMagnitude (digits : Nat) (negative : Bool) (text : List Char) :
    Except Fault (Json × List Char) := do
  let (whole, rest) ← orMalformed (splitIntegerPart text)
  let (fraction, rest) := splitFraction rest
  let (exponent, rest) := splitExponent rest
  if fraction.isEmpty && exponent.isNone then
    if digits < whole.length then throw (.tooManyDigits whole.length)
    let value : Int := decimalValue whole
    return (.integer (if negative then -value else value), rest)
  else
    let bits := Binary64.ofDecimal (decimalValue (whole ++ fraction))
      (exponent.getD 0 - fraction.length)
    return (signedReal negative bits, rest)

/-- Read a value that is neither an array nor an object nor a string. -/
def readAtom (digits : Nat) (text : List Char) :
    Except Fault (Json × List Char) :=
  match text with
  | 'n' :: 'u' :: 'l' :: 'l' :: rest => .ok (.null, rest)
  | 't' :: 'r' :: 'u' :: 'e' :: rest => .ok (.boolean true, rest)
  | 'f' :: 'a' :: 'l' :: 's' :: 'e' :: rest => .ok (.boolean false, rest)
  | 'N' :: 'a' :: 'N' :: rest => .ok (.real notANumberBits, rest)
  | 'I' :: 'n' :: 'f' :: 'i' :: 'n' :: 'i' :: 't' :: 'y' :: rest =>
      .ok (.real infinityBits, rest)
  | '-' :: 'I' :: 'n' :: 'f' :: 'i' :: 'n' :: 'i' :: 't' :: 'y' :: rest =>
      .ok (signedReal true infinityBits, rest)
  | '-' :: rest => readMagnitude digits true rest
  | _ => readMagnitude digits false text

mutual

/-- Read a value.  At least every second nested reading consumes a character, so
two steps for each character of the text and one more are enough. -/
def readValue : (steps : Nat) → Limits → List Char →
    Except Fault (Json × List Char)
  | 0, _, _ => .error .malformed
  | steps + 1, limits, text =>
      match text with
      | '"' :: rest => do
          let (value, rest) ← orMalformed (readLiteral rest)
          return (.string value, rest)
      | '[' :: rest =>
          match limits.nesting with
          | 0 => .error .tooDeep
          | nesting + 1 =>
              match skipSpace rest with
              | ']' :: rest => .ok (.array [], rest)
              | rest => do
                  let (items, rest) ← readItems steps ⟨nesting, limits.digits⟩ rest
                  return (.array items, rest)
      | '{' :: rest =>
          match limits.nesting with
          | 0 => .error .tooDeep
          | nesting + 1 =>
              match skipSpace rest with
              | '}' :: rest => .ok (.object [], rest)
              | rest => do
                  let (members, rest) ←
                    readMembers steps ⟨nesting, limits.digits⟩ [] rest
                  return (.object members, rest)
      | _ => readAtom limits.digits text

/-- Read the items of an array up to and including its closing bracket. -/
def readItems : (steps : Nat) → Limits → List Char →
    Except Fault (List Json × List Char)
  | 0, _, _ => .error .malformed
  | steps + 1, limits, text => do
      let (item, rest) ← readValue steps limits text
      match skipSpace rest with
      | ',' :: rest => do
          let (items, rest) ← readItems steps limits (skipSpace rest)
          return (item :: items, rest)
      | ']' :: rest => return ([item], rest)
      | _ => throw .malformed

/-- Read the members of an object up to and including its closing brace, adding
them to those already read. -/
def readMembers : (steps : Nat) → Limits → List (WideText × Json) → List Char →
    Except Fault (List (WideText × Json) × List Char)
  | 0, _, _, _ => .error .malformed
  | steps + 1, limits, members, text =>
      match text with
      | '"' :: rest => do
          let (key, rest) ← orMalformed (readLiteral rest)
          match skipSpace rest with
          | ':' :: rest => do
              let (value, rest) ← readValue steps limits (skipSpace rest)
              let members := Association.insert key value members
              match skipSpace rest with
              | ',' :: rest => readMembers steps limits members (skipSpace rest)
              | '}' :: rest => return (members, rest)
              | _ => throw .malformed
          | _ => throw .malformed
      | _ => throw .malformed

end

/-- Read a text that holds one value and otherwise only space. -/
def readWithin (limits : Limits) (text : List Char) : Except Fault Json := do
  let (value, rest) ← readValue (2 * text.length + 1) limits (skipSpace text)
  if (skipSpace rest).isEmpty then return value else throw .malformed

/-- Read a text without limits: none of its values exceeds limits of its own
length. -/
def read? (text : List Char) : Option Json :=
  (readWithin ⟨text.length, text.length⟩ text).toOption

end ExportAudit.Json
