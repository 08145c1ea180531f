import ExportAudit.Proofs.Json.Lexemes
import ExportAudit.Report.Record

/-!
# Printed texts and integers

A text printed as a string literal and an integer printed in decimal are single
tokens, from which they are read again.
-/

namespace ExportAudit.Json

open Scalar (literalCharacter)

/-! ## String literals -/

/-- A piece of a literal is read as one item, whatever follows it. -/
def ReadsItem (piece : List Char) (item : LiteralItem) : Prop :=
  ∀ rest, readLiteralItems (piece ++ rest) =
    (readLiteralItems rest).map fun read => (item :: read.1, read.2)

theorem readsItem_escape {letter character : Char}
    (known : escaped? letter = some character) :
    ReadsItem ['\\', letter] (.character character) := by
  intro rest
  have notUnit : letter ≠ 'u' := by
    rintro rfl
    cases escaped?_u.symm.trans known
  change readLiteralItems ('\\' :: letter :: rest) = _
  rw [readLiteralItems, known]
  · cases readLiteralItems rest <;> rfl
  · intro _ _ _ _ _ same
    exact absurd same notUnit

theorem readsItem_plain {character : Char} (printed : ¬ character.toNat < 0x20)
    (noQuote : character ≠ '"') (noEscape : character ≠ '\\') :
    ReadsItem [character] (.character character) := by
  intro rest
  change readLiteralItems (character :: rest) = _
  rw [readLiteralItems, if_neg (by simp [printed, noEscape])]
  · cases readLiteralItems rest <;> rfl
  · exact noQuote
  · exact fun _ _ _ _ _ same => absurd same noEscape
  · exact fun _ _ same => absurd same noEscape

theorem codeUnit?_hexDigits {unit : Nat} (control : unit < 0x20) :
    codeUnit? (Text.hexDigit (unit / 16 / 16 / 16 % 16))
      (Text.hexDigit (unit / 16 / 16 % 16)) (Text.hexDigit (unit / 16 % 16))
      (Text.hexDigit (unit % 16)) = some unit := by
  revert unit
  decide

theorem readsItem_codeUnit {unit : Nat} (control : unit < 0x20) :
    ReadsItem (['\\', 'u'] ++ Text.hexDigits 4 unit) (.codeUnit unit) := by
  intro rest
  change readLiteralItems ('\\' :: 'u' :: Text.hexDigit (unit / 16 / 16 / 16 % 16) ::
    Text.hexDigit (unit / 16 / 16 % 16) :: Text.hexDigit (unit / 16 % 16) ::
    Text.hexDigit (unit % 16) :: rest) = _
  rw [readLiteralItems, codeUnit?_hexDigits control]
  cases readLiteralItems rest <;> rfl

/-- The code unit of a control character is no part of a pair. -/
theorem join_codeUnit {character : Char} (control : character.toNat < 0x20)
    (items : List LiteralItem) :
    LiteralItem.join (.codeUnit character.toNat :: items) =
      .character character :: LiteralItem.join items := by
  have high : isHighSurrogate character.toNat = false := by
    simp [isHighSurrogate]
    omega
  have low : isLowSurrogate character.toNat = false := by
    simp [isLowSurrogate]
    omega
  have unit : unitPoint character.toNat = .character character := by
    rw [unitPoint, high, low]
    exact congrArg Point.character (Char.ofNat_toNat character)
  cases items with
  | nil => simp [LiteralItem.join, unit]
  | cons item items =>
      cases item with
      | character value => simp [LiteralItem.join, unit]
      | codeUnit value =>
          rw [LiteralItem.join, high, Bool.false_and, if_neg Bool.false_ne_true,
            unit]

/-- A character is read as one item of a literal, whatever follows it. -/
theorem exists_item (character : Char) :
    ∃ item, ReadsItem (literalCharacter character) item ∧
      ∀ items, LiteralItem.join (item :: items) =
        .character character :: LiteralItem.join items := by
  fun_cases literalCharacter character
  case case8 control =>
    exact ⟨_, readsItem_codeUnit control, join_codeUnit control⟩
  case case9 noQuote noEscape _ _ _ _ _ printed =>
    exact ⟨_, readsItem_plain printed noQuote noEscape, fun _ => rfl⟩
  -- the other characters have an escape of one letter
  all_goals
    subst_vars
    exact ⟨_, readsItem_escape rfl, fun _ => rfl⟩

theorem exists_items (characters rest : List Char) :
    ∃ items, readLiteralItems
        (characters.flatMap literalCharacter ++ '"' :: rest) =
          some (items, rest) ∧
      LiteralItem.join items = characters.map .character := by
  induction characters with
  | nil => exact ⟨[], rfl, rfl⟩
  | cons first others ih =>
      obtain ⟨items, read, joined⟩ := ih
      obtain ⟨item, readFirst, joinFirst⟩ := exists_item first
      refine ⟨item :: items, ?_, by rw [joinFirst, joined, List.map_cons]⟩
      rw [List.flatMap_cons, List.append_assoc, readFirst, read]
      rfl

/-- A text printed as a literal is read again. -/
theorem readLiteral_printed (text : String) (rest : List Char) :
    readLiteral (text.toList.flatMap literalCharacter ++ '"' :: rest) =
      some (.ofString text, rest) := by
  obtain ⟨items, read, joined⟩ := exists_items text.toList rest
  simp [readLiteral, read, joined, WideText.ofString]

theorem isBody_printed (text : String) :
    IsBody (text.toList.flatMap literalCharacter) := by
  obtain ⟨body, closed, same, -⟩ := readLiteral_eq_some (readLiteral_printed text [])
  rwa [List.append_cancel_right same]

/-- The token of a text printed as a literal. -/
def literalToken (text : String) : Token :=
  .literal (text.toList.flatMap literalCharacter) (isBody_printed text)

/-! ## Integers -/

/-- How many digits an integer is printed with. -/
def digitCount (value : Int) : Nat := (Nat.toDigits 10 value.natAbs).length

theorem isDigit_of_mem_toDigits {number : Nat} {character : Char}
    (member : character ∈ Nat.toDigits 10 number) : isDigit character = true := by
  have digit := Nat.isDigit_of_mem_toDigits (by decide) (by decide) member
  simpa [isDigit, Char.isDigit, Char.le_def, and_comm] using digit

theorem decimalValue_toDigits (number : Nat) :
    decimalValue (Nat.toDigits 10 number) = number := by
  have value := @Nat.ofDigitChars_ten_toDigits number
  rw [Nat.ofDigitChars_eq_foldl] at value
  simpa only [decimalValue, Nat.mul_comm] using value

/-- Only zero is printed with a zero in front. -/
theorem head?_toDigits {number : Nat} (positive : 0 < number) :
    (Nat.toDigits 10 number).head? ≠ some '0' := by
  induction number using Nat.strongRecOn with
  | ind number ih =>
      by_cases small : number < 10
      · have single : ∀ digit < 10, 0 < digit →
            [Nat.digitChar digit].head? ≠ some '0' := by
          decide
        rw [Nat.toDigits_of_lt_base small]
        exact single number small positive
      · rw [Nat.toDigits_of_base_le (by decide) (Nat.le_of_not_lt small),
          List.head?_append_of_ne_nil _ Nat.toDigits_ne_nil]
        exact ih _ (by omega) (by omega)

theorem splitIntegerPart_toDigits (number : Nat) :
    splitIntegerPart (Nat.toDigits 10 number) =
      some (Nat.toDigits 10 number, []) := by
  rcases Nat.eq_zero_or_pos number with rfl | positive
  · rfl
  · have head := head?_toDigits positive
    cases digits : Nat.toDigits 10 number with
    | nil => exact absurd digits Nat.toDigits_ne_nil
    | cons first rest =>
        have all : ∀ character ∈ first :: rest, isDigit character = true := by
          rw [← digits]
          exact fun _ => isDigit_of_mem_toDigits
        rw [digits] at head
        rw [splitIntegerPart_of_ne fun same => head (congrArg some same),
          List.takeWhile_eq_self_iff.mpr all, List.dropWhile_eq_nil_iff.mpr all]
        rfl

theorem readMagnitude_toDigits {digits : Nat} (negative : Bool) {number : Nat}
    (few : (Nat.toDigits 10 number).length ≤ digits) :
    readMagnitude digits negative (Nat.toDigits 10 number) =
      .ok (.integer (if negative then -(number : Int) else number), []) := by
  have fits : ¬ digits < (Nat.toDigits 10 number).length := Nat.not_lt.mpr few
  rw [readMagnitude, splitIntegerPart_toDigits]
  simp only [orMalformed, ok_bind, splitFraction, splitExponent, List.isEmpty_nil,
    Option.isNone_none, Bool.and_self, if_true, if_neg fits, decimalValue_toDigits]
  rfl

/-- An integer printed in decimal is read again, if so many digits are read. -/
theorem readAtom_printed {digits : Nat} {value : Int}
    (few : digitCount value ≤ digits) :
    readAtom digits (toString value).toList = .ok (.integer value, []) := by
  have starts : ∀ number, ∃ first rest, Nat.toDigits 10 number = first :: rest ∧
      isDigit first = true := by
    intro number
    obtain ⟨first, rest, shape⟩ := List.exists_cons_of_ne_nil
      (@Nat.toDigits_ne_nil number 10)
    exact ⟨first, rest, shape, isDigit_of_mem_toDigits (shape ▸ List.mem_cons_self)⟩
  cases value with
  | ofNat number =>
      have text : (toString (Int.ofNat number)).toList = Nat.toDigits 10 number :=
        Nat.toList_repr
      have read := readMagnitude_toDigits false few
      obtain ⟨first, rest, shape, digit⟩ := starts number
      rw [text, shape, readAtom_digit digits rest digit, ← shape]
      exact read
  | negSucc number =>
      have text : (toString (Int.negSucc number)).toList =
          '-' :: Nat.toDigits 10 (number + 1) := by
        have shape : toString (Int.negSucc number) =
            "-" ++ Nat.repr (number + 1) := rfl
        rw [shape, String.toList_append, Nat.toList_repr]
        rfl
      have read := readMagnitude_toDigits true few
      obtain ⟨first, rest, shape, digit⟩ := starts (number + 1)
      rw [text, shape, readAtom_minus digits rest digit, ← shape]
      exact read

theorem printed_integer_word (value : Int) :
    (toString value).toList ≠ [] ∧
      ∀ character ∈ (toString value).toList, isWordCharacter character = true := by
  obtain ⟨word, same, nonempty, plain, -⟩ :=
    readAtom_eq_ok (readAtom_printed (Nat.le_refl (digitCount value))) ends_nil
  rw [List.append_nil] at same
  exact same ▸ ⟨nonempty, plain⟩

/-- The token of an integer printed in decimal. -/
def integerToken (value : Int) : Token :=
  .word (toString value).toList (printed_integer_word value).1
    (printed_integer_word value).2

end ExportAudit.Json
