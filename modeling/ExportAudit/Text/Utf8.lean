/-!
# UTF-8

`decode?` reads bytes that are valid UTF-8.  `decodeLossy` reads any bytes:
each longest beginning of a character that cannot be continued, and each byte
that begins no character, is replaced by U+FFFD.  `decode` says instead where
the first of these faults lies.
-/

namespace ExportAudit.Text.Utf8

/-- The text that valid UTF-8 bytes denote. -/
def decode? (bytes : List UInt8) : Option String :=
  String.fromUTF8? bytes.toByteArray

/-- The bytes of a text. -/
def encode (text : String) : List UInt8 := text.toUTF8.data.toList

/-- What may follow the first byte of a character: the payload of that byte,
the range of the second byte, and how many bytes follow the second. -/
structure Lead where
  payload : Nat
  lowest : Nat
  highest : Nat
  further : Nat

/-- The first byte of a character of more than one byte. -/
def lead? (byte : Nat) : Option Lead :=
  if byte < 0xc2 then none
  else if byte < 0xe0 then some ⟨byte - 0xc0, 0x80, 0xbf, 0⟩
  else if byte = 0xe0 then some ⟨0, 0xa0, 0xbf, 1⟩
  else if byte = 0xed then some ⟨0xd, 0x80, 0x9f, 1⟩
  else if byte < 0xf0 then some ⟨byte - 0xe0, 0x80, 0xbf, 1⟩
  else if byte = 0xf0 then some ⟨0, 0x90, 0xbf, 2⟩
  else if byte < 0xf4 then some ⟨byte - 0xf0, 0x80, 0xbf, 2⟩
  else if byte = 0xf4 then some ⟨4, 0x80, 0x8f, 2⟩
  else none

/-- What a reader of bytes is in the middle of. -/
inductive Progress where
  | start
  | inside (payload : Nat) (lowest highest further : Nat)

/-- Read the first byte of a character. -/
def begin (byte : Nat) : List Char × Progress :=
  if byte < 0x80 then ([Char.ofNat byte], .start)
  else
    match lead? byte with
    | some lead =>
        ([], .inside lead.payload lead.lowest lead.highest lead.further)
    | none => (['\ufffd'], .start)

/-- Read bytes, replacing what is not valid. -/
def decodeFrom : Progress → List UInt8 → List Char
  | .start, [] => []
  | .inside .., [] => ['\ufffd']
  | .start, byte :: rest =>
      let (characters, progress) := begin byte.toNat
      characters ++ decodeFrom progress rest
  | .inside payload lowest highest further, byte :: rest =>
      let value := byte.toNat
      if lowest ≤ value && value ≤ highest then
        let payload := payload * 0x40 + (value - 0x80)
        if further = 0 then Char.ofNat payload :: decodeFrom .start rest
        else decodeFrom (.inside payload 0x80 0xbf (further - 1)) rest
      else
        let (characters, progress) := begin value
        '\ufffd' :: (characters ++ decodeFrom progress rest)

/-- The text that bytes denote, with replacements for what is not valid. -/
def decodeLossy (bytes : List UInt8) : String :=
  match decode? bytes with
  | some text => text
  | none => String.ofList (decodeFrom .start bytes)

/-- What is wrong with bytes that are not UTF-8. -/
inductive FaultKind where
  | noFirstByte
  | noFurtherByte
  | incomplete
  deriving DecidableEq

/-- The first place where bytes are not UTF-8: where the beginning of a
character that cannot be continued starts, how long it is, and its first
byte. -/
structure Fault where
  kind : FaultKind
  start : Nat
  length : Nat
  byte : UInt8
  deriving DecidableEq

/-- The first fault of bytes that stand at a position.  Inside a character,
`length` of its bytes have been read, the first of them `first`. -/
def faultFrom (position length : Nat) (first : UInt8) :
    Progress → List UInt8 → Option Fault
  | .start, [] => none
  | .inside .., [] => some ⟨.incomplete, position, length, first⟩
  | .start, byte :: rest =>
      if byte.toNat < 0x80 then faultFrom (position + 1) 0 byte .start rest
      else
        match lead? byte.toNat with
        | some lead =>
            faultFrom position 1 byte
              (.inside lead.payload lead.lowest lead.highest lead.further) rest
        | none => some ⟨.noFirstByte, position, 1, byte⟩
  | .inside payload lowest highest further, byte :: rest =>
      if lowest ≤ byte.toNat && byte.toNat ≤ highest then
        if further = 0 then
          faultFrom (position + length + 1) 0 byte .start rest
        else
          faultFrom position (length + 1) first
            (.inside payload 0x80 0xbf (further - 1)) rest
      else some ⟨.noFurtherByte, position, length, first⟩

/-- The text that bytes denote, or the first place where they are not UTF-8. -/
def decode (bytes : List UInt8) : Except Fault String :=
  match faultFrom 0 0 0 .start bytes with
  | some fault => .error fault
  | none => .ok (decodeLossy bytes)

end ExportAudit.Text.Utf8
