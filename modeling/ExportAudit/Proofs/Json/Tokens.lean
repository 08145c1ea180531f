import Mathlib.Data.List.TakeWhile
import ExportAudit.Json.Reader

/-!
# Tokens of JSON text

A text of JSON consists of marks, string literals and words, in order.  What may
stand between tokens is a parameter: single blanks in plain JSON, also comments
in the relaxed dialect.  A word extends as far as it can.

`Spells.unique` says that a plain text has one sequence of tokens only.
-/

namespace ExportAudit.Json

/-- The characters that are tokens by themselves. -/
inductive Mark where
  | openArray
  | closeArray
  | openObject
  | closeObject
  | colon
  | comma
  deriving DecidableEq

namespace Mark

def character : Mark → Char
  | .openArray => '['
  | .closeArray => ']'
  | .openObject => '{'
  | .closeObject => '}'
  | .colon => ':'
  | .comma => ','

/-- All marks. -/
def all : List Mark :=
  [.openArray, .closeArray, .openObject, .closeObject, .colon, .comma]

theorem character_inj {left right : Mark}
    (same : left.character = right.character) : left = right := by
  cases left <;> cases right <;> first | rfl | cases same

end Mark

/-- A character that can be part of a word: it is no blank, no mark, and opens
neither a string literal nor a comment. -/
def isWordCharacter (character : Char) : Bool :=
  !isSpace character && !(Mark.all.any (·.character = character)) &&
    character ≠ '"' && character ≠ '/'

/-- The characters between the quotes of a string literal: a backslash takes the
next character with it, and no quote stands alone. -/
inductive IsBody : List Char → Prop where
  | nil : IsBody []
  | pair {character : Char} {rest : List Char} (others : IsBody rest) :
      IsBody ('\\' :: character :: rest)
  | plain {character : Char} {rest : List Char}
      (noEscape : character ≠ '\\') (noQuote : character ≠ '"')
      (others : IsBody rest) : IsBody (character :: rest)

/-- A token of JSON text. -/
inductive Token where
  | mark (kind : Mark)
  | literal (body : List Char) (closed : IsBody body)
  | word (characters : List Char) (nonempty : characters ≠ [])
      (plain : ∀ character ∈ characters, isWordCharacter character = true)

namespace Token

/-- The characters of a token. -/
def text : Token → List Char
  | .mark kind => [kind.character]
  | .literal body _ => '"' :: (body ++ ['"'])
  | .word characters _ _ => characters

def IsWord : Token → Prop
  | .word .. => True
  | _ => False

/-- A token closes an array or an object. -/
def Closes (token : Token) : Prop :=
  token = .mark .closeArray ∨ token = .mark .closeObject

/-- A token opens an array or an object. -/
def Opens (token : Token) : Prop :=
  token = .mark .openArray ∨ token = .mark .openObject

end Token

/-- No word goes on at the start of a text. -/
def Ends (text : List Char) : Prop :=
  ∀ character ∈ text.head?, isWordCharacter character = false

/-- A text consists of some tokens in order, with separators between them. -/
inductive Spells (separates : List Char → Prop) :
    List Token → List Char → Prop where
  | done : Spells separates [] []
  | separator {separator rest : List Char} {tokens : List Token}
      (known : separates separator) (others : Spells separates tokens rest) :
      Spells separates tokens (separator ++ rest)
  | token {token : Token} {rest : List Char} {tokens : List Token}
      (ends : token.IsWord → Ends rest)
      (others : Spells separates tokens rest) :
      Spells separates (token :: tokens) (token.text ++ rest)

/-- The separators of plain JSON. -/
inductive Blank : List Char → Prop where
  | single {character : Char} (space : isSpace character = true) :
      Blank [character]

/-! ## Classes of characters -/

theorem isWordCharacter_of_space {character : Char}
    (space : isSpace character = true) : isWordCharacter character = false := by
  simp [isWordCharacter, space]

theorem isWordCharacter_mark (mark : Mark) :
    isWordCharacter mark.character = false := by
  cases mark <;> decide

theorem isSpace_mark (mark : Mark) : isSpace mark.character = false := by
  cases mark <;> decide

theorem isSpace_of_word {character : Char}
    (word : isWordCharacter character = true) : isSpace character = false := by
  cases space : isSpace character with
  | false => rfl
  | true =>
      rw [isWordCharacter_of_space space] at word
      cases word

theorem ends_nil : Ends [] := by
  simp [Ends]

theorem ends_cons {character : Char} {rest : List Char} :
    Ends (character :: rest) ↔ isWordCharacter character = false := by
  simp [Ends]

/-- Words are the tokens that start with a character of a word. -/
theorem Token.ends_iff (token : Token) (rest : List Char) :
    Ends (token.text ++ rest) ↔ ¬ token.IsWord := by
  cases token with
  | mark kind => exact iff_of_true (ends_cons.mpr (isWordCharacter_mark kind)) id
  | literal body closed => exact iff_of_true (ends_cons.mpr (by decide)) id
  | word characters nonempty plain =>
      cases characters with
      | nil => exact absurd rfl nonempty
      | cons first others =>
          have known := plain first List.mem_cons_self
          refine iff_of_false ?_ (not_not_intro trivial)
          intro ends
          rw [ends_cons.mp ends] at known
          cases known

/-! ## The first token of a text -/

theorem Token.text_ne_nil (token : Token) : token.text ≠ [] := by
  cases token with
  | mark mark => exact List.cons_ne_nil _ _
  | literal body closed => exact List.cons_ne_nil _ _
  | word characters nonempty plain => exact nonempty

/-- No token starts with a blank. -/
theorem skipSpace_text (token : Token) (rest : List Char) :
    skipSpace (token.text ++ rest) = token.text ++ rest := by
  cases token with
  | mark mark => simp [skipSpace, Token.text, isSpace_mark]
  | literal body closed =>
      have quote : isSpace '"' = false := by decide
      simp [skipSpace, Token.text, quote]
  | word characters nonempty plain =>
      cases characters with
      | nil => exact absurd rfl nonempty
      | cons first others =>
          have known := isSpace_of_word (plain first List.mem_cons_self)
          simp [skipSpace, Token.text, known]

theorem skipSpace_cons {character : Char} {rest : List Char}
    (space : isSpace character = true) :
    skipSpace (character :: rest) = skipSpace rest := by
  simp [skipSpace, space]

/-- A plain text without tokens is blank. -/
theorem Spells.skipSpace_eq_nil {text : List Char}
    (spells : Spells Blank [] text) : skipSpace text = [] := by
  generalize none : ([] : List Token) = tokens at spells
  induction spells with
  | done => rfl
  | separator known _ ih =>
      cases known with
      | single space =>
          rw [List.singleton_append, skipSpace_cons space]
          exact ih none
  | token => cases none

/-- Blanks apart, a plain text starts with its first token. -/
theorem Spells.skipSpace_eq {token : Token} {tokens : List Token}
    {text : List Char} (spells : Spells Blank (token :: tokens) text) :
    ∃ rest, skipSpace text = token.text ++ rest ∧
      (token.IsWord → Ends rest) ∧ Spells Blank tokens rest := by
  generalize some : token :: tokens = all at spells
  induction spells with
  | done => cases some
  | separator known _ ih =>
      cases known with
      | single space =>
          rw [List.singleton_append, skipSpace_cons space]
          exact ih some
  | token ends others =>
      cases some
      exact ⟨_, skipSpace_text _ _, ends, others⟩

theorem Spells.of_skipSpace {tokens : List Token} {text : List Char}
    (spells : Spells Blank tokens (skipSpace text)) :
    Spells Blank tokens text := by
  induction text with
  | nil => exact spells
  | cons character rest ih =>
      cases space : isSpace character with
      | true =>
          rw [skipSpace_cons space] at spells
          exact .separator (.single space) (ih spells)
      | false =>
          have same : skipSpace (character :: rest) = character :: rest := by
            simp [skipSpace, space]
          rwa [same] at spells

/-- A plain text ends what stands before it unless a word comes first. -/
theorem Spells.ends {tokens : List Token} {text : List Char}
    (spells : Spells Blank tokens text)
    (noWord : ∀ token ∈ tokens.head?, ¬ token.IsWord) : Ends text := by
  cases spells with
  | done => exact ends_nil
  | separator known _ =>
      cases known with
      | single space => exact ends_cons.mpr (isWordCharacter_of_space space)
  | token => exact (Token.ends_iff _ _).mpr (noWord _ rfl)

/-! ## Words that go on -/

section Words

variable {separates : List Char → Prop}
  (apart : ∀ {separator : List Char}, separates separator →
    ∀ rest, Ends (separator ++ rest))
include apart

/-- Where no separator is part of a word, a text that starts with a character of a
word starts with a word. -/
theorem Spells.exists_word {tokens : List Token} {text : List Char}
    (spells : Spells separates tokens text) (starts : ¬ Ends text) :
    ∃ characters nonempty plain others,
      tokens = .word characters nonempty plain :: others := by
  cases spells with
  | done => exact absurd ends_nil starts
  | separator known => exact absurd (apart known _) starts
  | @token token =>
      rw [Token.ends_iff, not_not] at starts
      cases token with
      | mark | literal => cases starts
      | word characters nonempty plain => exact ⟨characters, nonempty, plain, _, rfl⟩

/-- A word takes one more character in front. -/
theorem Spells.extend {first : Char} {characters text : List Char}
    {nonempty : characters ≠ []}
    {plain : ∀ character ∈ characters, isWordCharacter character = true}
    {others : List Token} (word : isWordCharacter first = true)
    (spells : Spells separates (.word characters nonempty plain :: others) text)
    (starts : ¬ Ends text) :
    Spells separates (.word (first :: characters) (List.cons_ne_nil _ _)
      (List.forall_mem_cons.mpr ⟨word, plain⟩) :: others) (first :: text) := by
  cases spells with
  | separator known => exact absurd (apart known _) starts
  | token ends later =>
      exact @Spells.token separates (.word (first :: characters) _ _) _ _ ends later

end Words

/-! ## Plain texts have one sequence of tokens -/

/-- The closing quote of a string literal is determined. -/
theorem IsBody.unique {left right leftRest rightRest : List Char}
    (leftBody : IsBody left) (rightBody : IsBody right)
    (same : left ++ '"' :: leftRest = right ++ '"' :: rightRest) :
    left = right ∧ leftRest = rightRest := by
  induction leftBody generalizing right with
  | nil =>
      cases rightBody with
      | nil => simpa using same
      | pair => simp at same
      | plain _ noQuote => exact absurd (List.cons.inj same).1.symm noQuote
  | pair others ih =>
      cases rightBody with
      | nil => simp at same
      | pair otherRest =>
          simp only [List.cons_append, List.cons.injEq, true_and] at same
          obtain ⟨rfl, rest⟩ := same
          obtain ⟨rfl, equal⟩ := ih otherRest rest
          exact ⟨rfl, equal⟩
      | plain noEscape => exact absurd (List.cons.inj same).1.symm noEscape
  | plain noEscape noQuote others ih =>
      cases rightBody with
      | nil => exact absurd (List.cons.inj same).1 noQuote
      | pair => exact absurd (List.cons.inj same).1 noEscape
      | plain _ _ otherRest =>
          simp only [List.cons_append, List.cons.injEq] at same
          obtain ⟨rfl, rest⟩ := same
          obtain ⟨rfl, equal⟩ := ih otherRest rest
          exact ⟨rfl, equal⟩

/-- A word and what follows it are determined. -/
theorem takeWhile_word {characters rest : List Char}
    (plain : ∀ character ∈ characters, isWordCharacter character = true)
    (ends : Ends rest) :
    (characters ++ rest).takeWhile isWordCharacter = characters ∧
      (characters ++ rest).dropWhile isWordCharacter = rest := by
  rw [List.takeWhile_append_of_pos plain, List.dropWhile_append_of_pos plain]
  cases rest with
  | nil => simp
  | cons first others => simp [ends_cons.mp ends]

theorem Token.unique {left right : Token} {leftRest rightRest : List Char}
    (leftEnds : left.IsWord → Ends leftRest)
    (rightEnds : right.IsWord → Ends rightRest)
    (same : left.text ++ leftRest = right.text ++ rightRest) :
    left = right ∧ leftRest = rightRest := by
  have words : left.IsWord ↔ right.IsWord := by
    rw [← not_iff_not, ← ends_iff left leftRest, same, ends_iff]
  cases left with
  | mark leftKind =>
      cases right with
      | mark rightKind =>
          simp only [text, List.singleton_append, List.cons.injEq] at same
          obtain ⟨first, rest⟩ := same
          rw [Mark.character_inj first]
          exact ⟨rfl, rest⟩
      | literal =>
          have first := (List.cons.inj same).1
          cases leftKind <;> cases first
      | word => cases words.mpr trivial
  | literal leftBody leftClosed =>
      cases right with
      | mark rightKind =>
          have first := (List.cons.inj same).1
          cases rightKind <;> cases first
      | literal rightBody rightClosed =>
          simp only [text, List.cons_append, List.append_assoc,
            List.nil_append, List.cons.injEq, true_and] at same
          obtain ⟨rfl, rest⟩ := leftClosed.unique rightClosed same
          exact ⟨rfl, rest⟩
      | word => cases words.mpr trivial
  | word leftCharacters leftNonempty leftPlain =>
      cases right with
      | mark => cases words.mp trivial
      | literal => cases words.mp trivial
      | word rightCharacters rightNonempty rightPlain =>
          have leftSplit := takeWhile_word leftPlain (leftEnds trivial)
          have rightSplit := takeWhile_word rightPlain (rightEnds trivial)
          simp only [text] at same
          rw [same, rightSplit.1, rightSplit.2] at leftSplit
          obtain ⟨rfl, rfl⟩ := leftSplit
          exact ⟨rfl, rfl⟩

/-- A plain text has one sequence of tokens only. -/
theorem Spells.unique {left right : List Token} {text : List Char}
    (leftSpells : Spells Blank left text)
    (rightSpells : Spells Blank right text) : left = right := by
  induction left generalizing right text with
  | nil =>
      cases right with
      | nil => rfl
      | cons token tokens =>
          obtain ⟨rest, starts, _⟩ := rightSpells.skipSpace_eq
          rw [leftSpells.skipSpace_eq_nil] at starts
          exact absurd (List.append_eq_nil_iff.mp starts.symm).1
            token.text_ne_nil
  | cons leftToken leftTokens ih =>
      obtain ⟨leftRest, leftStarts, leftEnds, leftOthers⟩ :=
        leftSpells.skipSpace_eq
      cases right with
      | nil =>
          rw [rightSpells.skipSpace_eq_nil] at leftStarts
          exact absurd (List.append_eq_nil_iff.mp leftStarts.symm).1
            leftToken.text_ne_nil
      | cons rightToken rightTokens =>
          obtain ⟨rightRest, rightStarts, rightEnds, rightOthers⟩ :=
            rightSpells.skipSpace_eq
          have same := leftStarts.symm.trans rightStarts
          obtain ⟨rfl, rfl⟩ := Token.unique leftEnds rightEnds same
          rw [ih leftOthers rightOthers]

/-- A text has at least as many characters as tokens. -/
theorem Spells.length_le {separates : List Char → Prop} {tokens : List Token}
    {text : List Char} (spells : Spells separates tokens text) :
    tokens.length ≤ text.length := by
  induction spells with
  | done => exact Nat.le_refl _
  | separator _ _ ih =>
      rw [List.length_append]
      omega
  | @token token _ _ _ _ ih =>
      have long := List.length_pos_iff.mpr token.text_ne_nil
      rw [List.length_append, List.length_cons]
      omega

end ExportAudit.Json
