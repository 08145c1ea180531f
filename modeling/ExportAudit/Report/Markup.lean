/-!
# Markup

Report texts are printed through a markup in which a style tag stands in
brackets.  A tag starts with `[` and a lower-case letter or one of `#`, `/` and
`@`, extends to the next `]`, and holds no other `[`.

A text is scanned into pieces: tags, each with the backslashes in front of it,
and characters between them.  Printing shows half of those backslashes, and the
tag itself exactly if their number is odd; otherwise the tag sets a style and
shows nothing.  Escaping makes the number of backslashes odd.  Between tags a
backslash directly before an opening bracket shows nothing either.
-/

namespace ExportAudit.Markup

/-- A piece of a text with markup. -/
inductive Piece where
  | plain (character : Char)
  | tag (backslashes : Nat) (body : List Char)
  deriving DecidableEq

/-- Whether a character may follow the opening bracket of a tag. -/
def opensTag (character : Char) : Bool :=
  ('a' ≤ character && character ≤ 'z') || character = '#' ||
    character = '/' || character = '@'

/-- The length of what a tag holds up to and including its closing bracket, if
the tag is closed before another bracket opens. -/
def closingLength? : List Char → Option Nat
  | [] => none
  | ']' :: _ => some 1
  | '[' :: _ => none
  | _ :: rest => (closingLength? rest).map (· + 1)

/-- The length of the tag at the start of a text. -/
def tagLength? : List Char → Option Nat
  | '[' :: first :: rest =>
      if opensTag first then (closingLength? rest).map (· + 2) else none
  | _ => none

/-- The length of the tag that follows the backslashes at the start of a
text, together with their number. -/
def leadingTag? (text : List Char) : Option (Nat × Nat) :=
  let backslashes := (text.takeWhile (· = '\\')).length
  (tagLength? (text.drop backslashes)).map fun length => (backslashes, length)

theorem two_le_of_tagLength? {text : List Char} {length : Nat}
    (found : tagLength? text = some length) : 2 ≤ length := by
  unfold tagLength? at found
  split at found
  · split at found
    · obtain ⟨inner, _, equal⟩ := Option.map_eq_some_iff.mp found
      omega
    · simp at found
  · simp at found

theorem two_le_of_leadingTag? {text : List Char} {backslashes length : Nat}
    (found : leadingTag? text = some (backslashes, length)) : 2 ≤ length := by
  obtain ⟨inner, isTag, equal⟩ := Option.map_eq_some_iff.mp found
  simp only [Prod.mk.injEq] at equal
  exact equal.2 ▸ two_le_of_tagLength? isTag

/-- The pieces of a text. -/
def scan : List Char → List Piece
  | [] => []
  | character :: rest =>
      match found : leadingTag? (character :: rest) with
      | some (backslashes, length) =>
          have := two_le_of_leadingTag? found
          .tag backslashes
              (((character :: rest).drop backslashes).take length) ::
            scan ((character :: rest).drop (backslashes + length))
      | none => .plain character :: scan rest
termination_by text => text.length
decreasing_by all_goals simp <;> omega

/-- A piece as it is escaped. -/
def Piece.escaped : Piece → List Char
  | .plain character => [character]
  | .tag backslashes body => List.replicate (2 * backslashes + 1) '\\' ++ body

/-- A piece as it is printed by itself. -/
def Piece.printed : Piece → List Char
  | .plain character => [character]
  | .tag backslashes body =>
      List.replicate (backslashes / 2) '\\' ++
        if backslashes % 2 = 1 then body else []

/-- Pieces as they are printed.  A backslash before a bracket that opens no tag
shows nothing. -/
def printPieces : List Piece → List Char
  | [] => []
  | .plain '\\' :: .plain '[' :: rest => '[' :: printPieces rest
  | piece :: rest => piece.printed ++ printPieces rest

/-- Whether a text ends with exactly one backslash. -/
def endsWithOneBackslash (text : List Char) : Bool :=
  match text.reverse with
  | '\\' :: '\\' :: _ => false
  | '\\' :: _ => true
  | _ => false

/-- Escape a text so that nothing in it is a style tag.  A single backslash at
its end is doubled, so that it does not escape what follows. -/
def escape (text : List Char) : List Char :=
  let escaped := (scan text).flatMap Piece.escaped
  if endsWithOneBackslash escaped then escaped ++ ['\\'] else escaped

/-- The text that markup shows. -/
def print (text : List Char) : List Char := printPieces (scan text)

end ExportAudit.Markup
