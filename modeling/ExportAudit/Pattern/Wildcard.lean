/-!
# Wildcard patterns

In a pattern `*` stands for any text, `?` for any character, and a bracket
expression for one character of a set.  A bracket expression lists characters
and ranges; a `]` directly after its start is a character like any other, and
an unclosed bracket stands for itself.

Ranges that are reversed denote nothing and are left out first.  If an
exclamation mark then stands in front, the set is complemented.
-/

namespace ExportAudit.Pattern

/-- A member of a bracket expression. -/
inductive SetItem where
  | single (character : Char)
  | range (lowest highest : Char)
  deriving DecidableEq

namespace SetItem

/-- Whether a character is among those of an item. -/
def covers (character : Char) : SetItem → Bool
  | .single expected => character = expected
  | .range lowest highest => lowest ≤ character && character ≤ highest

/-- Whether an item denotes at least one character. -/
def isProper : SetItem → Bool
  | .single _ => true
  | .range lowest highest => lowest ≤ highest

/-- The items written in the body of a bracket expression. -/
def ofBody : List Char → List SetItem
  | lowest :: '-' :: highest :: rest => .range lowest highest :: ofBody rest
  | character :: rest => .single character :: ofBody rest
  | [] => []

end SetItem

/-- A set of characters, given by its members or by those it lacks. -/
structure CharacterSet where
  isComplement : Bool
  items : List SetItem
  deriving DecidableEq

namespace CharacterSet

/-- Whether a character is in a set. -/
def contains (set : CharacterSet) (character : Char) : Bool :=
  set.isComplement != set.items.any (·.covers character)

/-- The set that proper items denote: an exclamation mark in front takes the
complement of the others.  A range that starts with that mark leaves its hyphen
and its end behind. -/
def ofItems : List SetItem → CharacterSet
  | .single '!' :: rest => ⟨true, rest⟩
  | .range '!' highest :: rest => ⟨true, .single '-' :: .single highest :: rest⟩
  | items => ⟨false, items⟩

/-- The set that the body of a bracket expression denotes. -/
def ofBody (body : List Char) : CharacterSet :=
  let items : List SetItem :=
    match body with
    | '!' :: rest => .single '!' :: SetItem.ofBody rest
    | _ => SetItem.ofBody body
  ofItems (items.filter (·.isProper))

end CharacterSet

/-- A part of a wildcard pattern. -/
inductive Token where
  | literal (character : Char)
  | anyCharacter
  | anyText
  | set (set : CharacterSet)
  deriving DecidableEq

/-- The length of the body of a bracket expression whose opening bracket has
been read, if the expression is closed. -/
def bodyLength? (text : List Char) : Option Nat :=
  let afterMark := if text.head? = some '!' then 1 else 0
  let afterBracket :=
    if (text.drop afterMark).head? = some ']' then afterMark + 1 else afterMark
  ((text.drop afterBracket).findIdx? (· = ']')).map (· + afterBracket)

/-- The parts of a pattern. -/
def tokens : List Char → List Token
  | [] => []
  | '*' :: rest => .anyText :: tokens rest
  | '?' :: rest => .anyCharacter :: tokens rest
  | '[' :: rest =>
      match bodyLength? rest with
      | some length =>
          .set (CharacterSet.ofBody (rest.take length)) ::
            tokens (rest.drop (length + 1))
      | none => .literal '[' :: tokens rest
  | character :: rest => .literal character :: tokens rest
termination_by text => text.length
decreasing_by all_goals grind

/-- Whether a test accepts a text or what is left of it after dropping some
characters from its front. -/
def acceptsSuffix (accepts : List Char → Bool) : List Char → Bool
  | [] => accepts []
  | character :: rest =>
      accepts (character :: rest) || acceptsSuffix accepts rest

/-- Whether a whole text matches the parts of a pattern. -/
def accepts : List Token → List Char → Bool
  | [], text => text.isEmpty
  | .anyText :: rest, text => acceptsSuffix (accepts rest) text
  | .literal _ :: _, [] => false
  | .literal expected :: rest, character :: text =>
      character = expected && accepts rest text
  | .anyCharacter :: _, [] => false
  | .anyCharacter :: rest, _ :: text => accepts rest text
  | .set _ :: _, [] => false
  | .set set :: rest, character :: text =>
      set.contains character && accepts rest text

/-- Whether a whole text matches a pattern. -/
def isMatch (pattern text : List Char) : Bool := accepts (tokens pattern) text

/-- Whether a pattern has a character with a special meaning. -/
def hasWildcard (pattern : List Char) : Bool :=
  pattern.any fun character =>
    character = '*' || character = '?' || character = '['

end ExportAudit.Pattern
