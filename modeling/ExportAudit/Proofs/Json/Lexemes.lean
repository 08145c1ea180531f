import ExportAudit.Proofs.Failure.Propagation
import ExportAudit.Proofs.Json.Tokens

/-!
# What single tokens denote

The readers of string literals and of words take exactly one token from the
front of a text, whatever follows it.
-/

namespace ExportAudit.Json

/-! ## String literals -/

theorem hexValue?_quote : hexValue? '"' = none := by decide

theorem hexValue?_backslash : hexValue? '\\' = none := by decide

theorem escaped?_u : escaped? 'u' = none := rfl

theorem IsBody.of_hexValue? {character : Char} {value : Nat} {rest : List Char}
    (digit : hexValue? character = some value) (others : IsBody rest) :
    IsBody (character :: rest) := by
  refine .plain ?_ ?_ others
  · rintro rfl
    rw [hexValue?_backslash] at digit
    cases digit
  · rintro rfl
    rw [hexValue?_quote] at digit
    cases digit

/-- Items are read up to a closing quote, whatever follows it. -/
theorem readLiteralItems_eq_some {text rest : List Char}
    {items : List LiteralItem}
    (read : readLiteralItems text = some (items, rest)) :
    ∃ body, IsBody body ∧ text = body ++ '"' :: rest ∧
      ∀ other, readLiteralItems (body ++ '"' :: other) =
        some (items, other) := by
  fun_induction readLiteralItems text generalizing items rest with
  | case1 => cases read
  | case2 after =>
      cases read
      exact ⟨[], .nil, rfl, fun _ => rfl⟩
  | case3 first second third fourth after ih =>
      simp only [Option.bind_eq_bind, Option.bind_eq_some_iff, codeUnit?,
        Option.pure_def, Option.some.injEq, Prod.mk.injEq] at read
      obtain ⟨unit, digits, ⟨others, left⟩, later, made, rfl⟩ := read
      obtain ⟨one, oneDigit, two, twoDigit, three, threeDigit, four,
        fourDigit, value⟩ := digits
      obtain ⟨body, closed, rfl, exact⟩ := ih later
      refine ⟨'\\' :: 'u' :: first :: second :: third :: fourth :: body, ?_,
        rfl, ?_⟩
      · exact .pair (.of_hexValue? oneDigit (.of_hexValue? twoDigit
          (.of_hexValue? threeDigit (.of_hexValue? fourDigit closed))))
      · intro other
        simp [readLiteralItems, codeUnit?, oneDigit, twoDigit, threeDigit,
          fourDigit, exact other, ← made, value]
  | case4 letter after notUnit ih =>
      simp only [Option.bind_eq_bind, Option.bind_eq_some_iff,
        Option.pure_def, Option.some.injEq, Prod.mk.injEq] at read
      obtain ⟨character, known, ⟨others, left⟩, later, made, rfl⟩ := read
      obtain ⟨body, closed, rfl, exact⟩ := ih later
      refine ⟨'\\' :: letter :: body, .pair closed, rfl, ?_⟩
      intro other
      have different : letter ≠ 'u' := by
        rintro rfl
        rw [escaped?_u] at known
        cases known
      simp [readLiteralItems, different, known, exact other, ← made]
  | case5 character after notQuote notEscape refused => cases read
  | case6 character after notQuote notUnit notEscape accepted ih =>
      simp only [Option.bind_eq_bind, Option.bind_eq_some_iff,
        Option.pure_def, Option.some.injEq, Prod.mk.injEq] at read
      obtain ⟨⟨others, left⟩, later, made, rfl⟩ := read
      obtain ⟨body, closed, rfl, exact⟩ := ih later
      simp only [Bool.or_eq_true, decide_eq_true_eq, not_or] at accepted
      refine ⟨character :: body, .plain accepted.2 notQuote closed, rfl, ?_⟩
      intro other
      simp [readLiteralItems, accepted, exact other, ← made]

theorem readLiteral_eq_some {text rest : List Char} {value : WideText}
    (read : readLiteral text = some (value, rest)) :
    ∃ body, IsBody body ∧ text = body ++ '"' :: rest ∧
      ∀ other, readLiteral (body ++ '"' :: other) = some (value, other) := by
  simp only [readLiteral, Option.bind_eq_bind, Option.bind_eq_some_iff,
    Option.pure_def, Option.some.injEq, Prod.mk.injEq] at read ⊢
  obtain ⟨⟨items, after⟩, found, joined, rfl⟩ := read
  obtain ⟨body, closed, split, exact⟩ := readLiteralItems_eq_some found
  exact ⟨body, closed, split, fun other =>
    ⟨(items, other), exact other, joined, rfl⟩⟩

/-- A string literal is read alike whatever follows it. -/
theorem readLiteral_of_closed {body : List Char} {value : WideText}
    (closed : IsBody body)
    (read : readLiteral (body ++ ['"']) = some (value, []))
    (other : List Char) :
    readLiteral (body ++ '"' :: other) = some (value, other) := by
  obtain ⟨found, foundClosed, split, exact⟩ := readLiteral_eq_some read
  obtain ⟨rfl, _⟩ := closed.unique foundClosed split
  exact exact other

/-! ## Numbers -/

theorem isWordCharacter_of_digit {character : Char}
    (digit : isDigit character = true) : isWordCharacter character = true := by
  have differs : ∀ other, isDigit other = false → character ≠ other := by
    intro other noDigit same
    rw [same, noDigit] at digit
    cases digit
  have noSpace : isSpace character = false := by
    simp [isSpace, differs ' ' (by decide), differs '\t' (by decide),
      differs '\n' (by decide), differs '\r' (by decide)]
  have noMark : ∀ mark : Mark, mark.character ≠ character := by
    intro mark same
    exact differs mark.character (by cases mark <;> decide) same.symm
  simp [isWordCharacter, noSpace, noMark, differs '"' (by decide),
    differs '/' (by decide)]

/-- A text does not go on with a digit. -/
def NoDigit (text : List Char) : Prop :=
  ∀ character ∈ text.head?, isDigit character = false

/-- A text goes on with neither a digit nor a point. -/
def NoFraction (text : List Char) : Prop :=
  ∀ character ∈ text.head?, isDigit character = false ∧ character ≠ '.'

theorem NoFraction.noDigit {text : List Char} (none : NoFraction text) :
    NoDigit text :=
  fun character first => (none character first).1

theorem Ends.noFraction {text : List Char} (ends : Ends text) :
    NoFraction text := by
  intro character first
  have noWord := ends character first
  constructor
  · cases digit : isDigit character with
    | false => rfl
    | true =>
        rw [isWordCharacter_of_digit digit] at noWord
        cases noWord
  · intro point
    rw [point] at noWord
    revert noWord
    decide

/-- Digits are taken up to what does not go on with one. -/
theorem takeWhile_digits {digits rest : List Char}
    (all : ∀ digit ∈ digits, isDigit digit = true) (noDigit : NoDigit rest) :
    (digits ++ rest).takeWhile isDigit = digits ∧
      (digits ++ rest).dropWhile isDigit = rest := by
  rw [List.takeWhile_append_of_pos all, List.dropWhile_append_of_pos all]
  cases rest with
  | nil => simp
  | cons first others => simp [noDigit first rfl]

theorem isDigit_of_mem_takeWhile {text : List Char} :
    ∀ digit ∈ text.takeWhile isDigit, isDigit digit = true :=
  fun _ member => List.mem_takeWhile_imp member

theorem noDigit_dropWhile (text : List Char) :
    NoDigit (text.dropWhile isDigit) := by
  intro character first
  have known := List.head?_dropWhile_not isDigit text
  rw [first] at known
  exact known

/-- An integer part is a zero, or digits that do not start with one. -/
theorem splitIntegerPart_of_ne {first : Char} {rest : List Char}
    (different : first ≠ '0') :
    splitIntegerPart (first :: rest) =
      if ((first :: rest).takeWhile isDigit).isEmpty then none
      else some ((first :: rest).takeWhile isDigit,
        (first :: rest).dropWhile isDigit) :=
  splitIntegerPart.eq_2 _ fun _ same => different (List.cons.inj same).1

theorem splitIntegerPart_eq_some {text digits rest : List Char}
    (split : splitIntegerPart text = some (digits, rest)) :
    text = digits ++ rest ∧ digits ≠ [] ∧
      (∀ digit ∈ digits, isDigit digit = true) ∧
      ∀ other, NoDigit other →
        splitIntegerPart (digits ++ other) = some (digits, other) := by
  cases text with
  | nil => cases split
  | cons first after =>
      by_cases zero : first = '0'
      · subst zero
        cases split
        exact ⟨rfl, List.cons_ne_nil _ _, List.all_eq_true.mp rfl, fun _ _ => rfl⟩
      · rw [splitIntegerPart_of_ne zero] at split
        split at split
        · cases split
        · next some =>
          cases split
          refine ⟨List.takeWhile_append_dropWhile.symm,
            by simpa only [List.isEmpty_iff] using some,
            isDigit_of_mem_takeWhile, ?_⟩
          intro other noDigit
          obtain ⟨taken, left⟩ :=
            takeWhile_digits (@isDigit_of_mem_takeWhile (first :: after))
              noDigit
          cases digit : isDigit first with
          | false => simp [digit] at some
          | true =>
              rw [List.takeWhile_cons_of_pos digit] at taken left ⊢
              rw [List.cons_append] at taken left ⊢
              rw [splitIntegerPart_of_ne zero, taken, left]
              rfl

theorem splitFraction_of_ne {text : List Char}
    (noPoint : text.head? ≠ some '.') : splitFraction text = ([], text) := by
  cases text with
  | nil => rfl
  | cons first rest =>
      exact splitFraction.eq_2 _ fun _ same =>
        noPoint (congrArg some (List.cons.inj same).1)

theorem splitFraction_cons {digits rest : List Char} (some : digits ≠ [])
    (all : ∀ digit ∈ digits, isDigit digit = true) (noDigit : NoDigit rest) :
    splitFraction ('.' :: (digits ++ rest)) = (digits, rest) := by
  obtain ⟨taken, left⟩ := takeWhile_digits all noDigit
  simp only [splitFraction, taken, left]
  rw [if_neg (by simpa only [List.isEmpty_iff] using some)]

/-- A text goes on with a fraction, or no fraction is read. -/
theorem splitFraction_cases (text : List Char) :
    splitFraction text = ([], text) ∨
      ∃ digits rest, text = '.' :: (digits ++ rest) ∧ digits ≠ [] ∧
        (∀ digit ∈ digits, isDigit digit = true) ∧ NoDigit rest := by
  by_cases point : text.head? = some '.'
  · cases text with
    | nil => cases point
    | cons first after =>
        cases point
        cases none : (after.takeWhile isDigit).isEmpty with
        | true =>
            left
            simp only [splitFraction, none, if_true]
        | false =>
            right
            refine ⟨after.takeWhile isDigit, after.dropWhile isDigit, ?_, ?_,
              isDigit_of_mem_takeWhile, noDigit_dropWhile after⟩
            · rw [List.takeWhile_append_dropWhile]
            · intro empty
              rw [empty] at none
              cases none
  · exact .inl (splitFraction_of_ne point)

/-- What is read of a fraction does not depend on what follows it. -/
theorem splitFraction_eq {text digits rest : List Char}
    (split : splitFraction text = (digits, rest)) :
    ∃ fraction, text = fraction ++ rest ∧
      (∀ character ∈ fraction, isWordCharacter character = true) ∧
      (∀ other, NoFraction other → NoDigit (fraction ++ other)) ∧
      ∀ other, NoFraction other →
        splitFraction (fraction ++ other) = (digits, other) := by
  cases splitFraction_cases text with
  | inl absent =>
      cases split.symm.trans absent
      refine ⟨[], rfl, by simp, fun _ none => none.noDigit, ?_⟩
      intro other none
      exact splitFraction_of_ne fun point => (none '.' point).2 rfl
  | inr present =>
      obtain ⟨found, after, rfl, some, all, noDigit⟩ := present
      cases split.symm.trans (splitFraction_cons some all noDigit)
      refine ⟨'.' :: digits, rfl, ?_, ?_, ?_⟩
      · intro character member
        cases member with
        | head => decide
        | tail _ member => exact isWordCharacter_of_digit (all _ member)
      · intro other _ character first
        cases first
        decide
      · intro other none
        exact splitFraction_cons some all none.noDigit

theorem splitExponent_of_ne {text : List Char}
    (noExponent : ∀ letter ∈ text.head?, letter ≠ 'e' ∧ letter ≠ 'E') :
    splitExponent text = (none, text) := by
  cases text with
  | nil => rfl
  | cons letter rest => simp [splitExponent, noExponent letter rfl]

/-- The sign that an exponent may have. -/
inductive IsSign : List Char → Prop where
  | absent : IsSign []
  | minus : IsSign ['-']
  | plus : IsSign ['+']

/-- What stands after the sign of an exponent, if it has one. -/
def Unsigned (sign body : List Char) : Prop :=
  sign = [] → body.head? ≠ some '-' ∧ body.head? ≠ some '+'

theorem exists_sign (text : List Char) :
    ∃ sign body, text = sign ++ body ∧ IsSign sign ∧ Unsigned sign body := by
  cases text with
  | nil => exact ⟨[], [], rfl, .absent, by simp [Unsigned]⟩
  | cons first rest =>
      by_cases minus : first = '-'
      · exact ⟨[first], rest, rfl, minus ▸ .minus, by simp [Unsigned]⟩
      · by_cases plus : first = '+'
        · exact ⟨[first], rest, rfl, plus ▸ .plus, by simp [Unsigned]⟩
        · exact ⟨[], first :: rest, rfl, .absent, by simp [Unsigned, minus, plus]⟩

theorem splitExponent_signed {letter : Char} {sign body : List Char}
    (letters : letter = 'e' ∨ letter = 'E') (signed : IsSign sign)
    (unsigned : Unsigned sign body) :
    splitExponent (letter :: (sign ++ body)) =
      if (body.takeWhile isDigit).isEmpty then
        (none, letter :: (sign ++ body))
      else
        (some (if sign = ['-'] then -(decimalValue (body.takeWhile isDigit) : Int)
          else decimalValue (body.takeWhile isDigit)),
          body.dropWhile isDigit) := by
  have known : (decide (letter = 'e') || decide (letter = 'E')) = true := by
    simpa using letters
  cases signed with
  | absent =>
      obtain ⟨minus, plus⟩ := unsigned rfl
      simp [splitExponent, known, minus, plus]
  | minus => simp [splitExponent, known]
  | plus => simp [splitExponent, known]

/-- A letter, perhaps a sign, and digits are an exponent. -/
theorem splitExponent_cons {letter : Char} {sign digits rest : List Char}
    (letters : letter = 'e' ∨ letter = 'E') (signed : IsSign sign)
    (some : digits ≠ []) (all : ∀ digit ∈ digits, isDigit digit = true)
    (noDigit : NoDigit rest) :
    splitExponent (letter :: (sign ++ (digits ++ rest))) =
      (.some (if sign = ['-'] then -(decimalValue digits : Int)
        else decimalValue digits), rest) := by
  have unsigned : Unsigned sign (digits ++ rest) := by
    cases digits with
    | nil => exact absurd rfl some
    | cons digit _ =>
        have first := all digit List.mem_cons_self
        have differs : ∀ other, isDigit other = false →
            Option.some digit ≠ .some other := by
          intro other noDigit same
          cases same
          rw [noDigit] at first
          cases first
        exact fun _ => ⟨differs '-' (by decide), differs '+' (by decide)⟩
  obtain ⟨taken, left⟩ := takeWhile_digits all noDigit
  rw [splitExponent_signed letters signed unsigned, taken, left,
    if_neg (by simpa only [List.isEmpty_iff] using some)]

/-- A text goes on with an exponent, or no exponent is read. -/
theorem splitExponent_cases (text : List Char) :
    splitExponent text = (none, text) ∨
      ∃ letter sign digits rest,
        text = letter :: (sign ++ (digits ++ rest)) ∧
        (letter = 'e' ∨ letter = 'E') ∧ IsSign sign ∧ digits ≠ [] ∧
        (∀ digit ∈ digits, isDigit digit = true) ∧ NoDigit rest := by
  cases text with
  | nil => exact .inl rfl
  | cons letter after =>
      by_cases letters : letter = 'e' ∨ letter = 'E'
      · obtain ⟨sign, body, rfl, signed, unsigned⟩ := exists_sign after
        cases none : (body.takeWhile isDigit).isEmpty with
        | true =>
            left
            rw [splitExponent_signed letters signed unsigned, if_pos none]
        | false =>
            right
            refine ⟨letter, sign, body.takeWhile isDigit,
              body.dropWhile isDigit, ?_, letters, signed, ?_,
              isDigit_of_mem_takeWhile, noDigit_dropWhile body⟩
            · rw [List.takeWhile_append_dropWhile]
            · intro empty
              rw [empty] at none
              cases none
      · left
        refine splitExponent_of_ne fun found same => ?_
        cases same
        exact not_or.mp letters

/-- What is read of an exponent does not depend on what follows it. -/
theorem splitExponent_eq {text rest : List Char} {exponent : Option Int}
    (split : splitExponent text = (exponent, rest)) :
    ∃ part, text = part ++ rest ∧
      (∀ character ∈ part, isWordCharacter character = true) ∧
      (∀ other, Ends other → NoFraction (part ++ other)) ∧
      ∀ other, Ends other →
        splitExponent (part ++ other) = (exponent, other) := by
  cases splitExponent_cases text with
  | inl absent =>
      cases split.symm.trans absent
      refine ⟨[], rfl, by simp, fun _ ends => ends.noFraction, ?_⟩
      intro other ends
      refine splitExponent_of_ne fun letter first => ?_
      have noWord := ends letter first
      constructor <;> rintro rfl <;> revert noWord <;> decide
  | inr present =>
      obtain ⟨letter, sign, digits, after, rfl, letters, signed, some, all,
        noDigit⟩ := present
      cases split.symm.trans
        (splitExponent_cons letters signed some all noDigit)
      refine ⟨letter :: (sign ++ digits), by simp, ?_, ?_, ?_⟩
      · intro character member
        simp only [List.mem_cons, List.mem_append] at member
        obtain rfl | inSign | inDigits := member
        · obtain rfl | rfl := letters <;> decide
        · cases signed with
          | absent => cases inSign
          | minus =>
              rw [List.mem_singleton.mp inSign]
              decide
          | plus =>
              rw [List.mem_singleton.mp inSign]
              decide
        · exact isWordCharacter_of_digit (all _ inDigits)
      · intro other _ character first
        cases first
        obtain rfl | rfl := letters <;> decide
      · intro other ends
        simpa using splitExponent_cons letters signed some all
          ends.noFraction.noDigit

theorem orMalformed_eq_ok {α : Type} {found : Option α} {result : α} :
    orMalformed found = .ok result ↔ found = some result := by
  cases found <;> simp [orMalformed]

/-- A number without its sign takes a word that starts with a digit. -/
theorem readMagnitude_eq_ok {digits : Nat} {negative : Bool}
    {text rest : List Char} {value : Json}
    (read : readMagnitude digits negative text = .ok (value, rest))
    (ends : Ends rest) :
    ∃ first others, text = first :: (others ++ rest) ∧ isDigit first = true ∧
      (∀ character ∈ first :: others, isWordCharacter character = true) ∧
      ∀ other, Ends other →
        readMagnitude digits negative (first :: (others ++ other)) =
          .ok (value, other) := by
  obtain ⟨⟨whole, afterWhole⟩, found, parts⟩ := bind_eq_ok.mp read
  have wholeSplit := orMalformed_eq_ok.mp found
  cases fractionSplit : splitFraction afterWhole with
  | mk fractionDigits afterFraction =>
  cases exponentSplit : splitExponent afterFraction with
  | mk exponent afterExponent =>
  simp only [fractionSplit, exponentSplit] at parts
  have last : afterExponent = rest := by
    split at parts
    · split at parts
      · cases parts
      · cases parts
        rfl
    · cases parts
      rfl
  subst last
  obtain ⟨rfl, some, wholeDigits, wholeExact⟩ := splitIntegerPart_eq_some wholeSplit
  obtain ⟨fraction, rfl, fractionWord, fractionStops, fractionExact⟩ :=
    splitFraction_eq fractionSplit
  obtain ⟨part, rfl, partWord, partStops, partExact⟩ :=
    splitExponent_eq exponentSplit
  cases whole with
  | nil => exact absurd rfl some
  | cons first others =>
      refine ⟨first, others ++ (fraction ++ part), by simp,
        wholeDigits first List.mem_cons_self, ?_, ?_⟩
      · intro character member
        rw [← List.cons_append] at member
        cases List.mem_append.mp member with
        | inl inWhole => exact isWordCharacter_of_digit (wholeDigits _ inWhole)
        | inr inRest =>
            cases List.mem_append.mp inRest with
            | inl inFraction => exact fractionWord _ inFraction
            | inr inPart => exact partWord _ inPart
      · intro other otherEnds
        have noFraction := partStops other otherEnds
        have wholeRead := wholeExact (fraction ++ (part ++ other))
          (fractionStops _ noFraction)
        rw [List.cons_append] at wholeRead
        simp only [List.append_assoc, readMagnitude, wholeRead,
          fractionExact _ noFraction, partExact _ otherEnds, orMalformed, ok_bind]
        split at parts
        · next integer =>
          split at parts
          · cases parts
          · next few =>
            cases parts
            rw [if_pos integer, if_neg few]
            rfl
        · next noInteger =>
          cases parts
          rw [if_neg noInteger]
          rfl

/-! ## Words -/

/-- A word that starts with a digit is a number. -/
theorem readAtom_digit {first : Char} (digits : Nat) (rest : List Char)
    (digit : isDigit first = true) :
    readAtom digits (first :: rest) =
      readMagnitude digits false (first :: rest) := by
  unfold readAtom
  split
  case h_8 => rfl
  all_goals
    next same =>
      cases same
      exact absurd digit (by decide)

/-- A word that starts with a minus and a digit is a number. -/
theorem readAtom_minus {first : Char} (digits : Nat) (rest : List Char)
    (digit : isDigit first = true) :
    readAtom digits ('-' :: first :: rest) =
      readMagnitude digits true (first :: rest) := by
  refine readAtom.eq_7 digits (first :: rest) fun _ same => ?_
  cases same
  exact absurd digit (by decide)

/-- A word is a fixed one, or a number with or without a sign. -/
theorem readAtom_cases (digits : Nat) (text : List Char) :
    (∃ word rest value, text = word ++ rest ∧ word ≠ [] ∧
        (∀ character ∈ word, isWordCharacter character = true) ∧
        ∀ other, readAtom digits (word ++ other) = .ok (value, other)) ∨
      (∃ rest, text = '-' :: rest ∧
        readAtom digits text = readMagnitude digits true rest) ∨
      readAtom digits text = readMagnitude digits false text := by
  rw [readAtom.eq_def]
  split
  case h_7 rest _ => exact .inr (.inl ⟨rest, rfl, rfl⟩)
  case h_8 => exact .inr (.inr rfl)
  -- what is left are the fixed words
  all_goals left
  · exact ⟨"null".toList, _, _, rfl, by decide, List.all_eq_true.mp rfl,
      fun _ => rfl⟩
  · exact ⟨"true".toList, _, _, rfl, by decide, List.all_eq_true.mp rfl,
      fun _ => rfl⟩
  · exact ⟨"false".toList, _, _, rfl, by decide, List.all_eq_true.mp rfl,
      fun _ => rfl⟩
  · exact ⟨"NaN".toList, _, _, rfl, by decide, List.all_eq_true.mp rfl,
      fun _ => rfl⟩
  · exact ⟨"Infinity".toList, _, _, rfl, by decide, List.all_eq_true.mp rfl,
      fun _ => rfl⟩
  · exact ⟨"-Infinity".toList, _, _, rfl, by decide, List.all_eq_true.mp rfl,
      fun _ => rfl⟩

/-- A word is read alike whatever ends it. -/
theorem readAtom_eq_ok {digits : Nat} {text rest : List Char} {value : Json}
    (read : readAtom digits text = .ok (value, rest)) (ends : Ends rest) :
    ∃ word, text = word ++ rest ∧ word ≠ [] ∧
      (∀ character ∈ word, isWordCharacter character = true) ∧
      ∀ other, Ends other →
        readAtom digits (word ++ other) = .ok (value, other) := by
  obtain ⟨word, _, _, rfl, nonempty, plain, exact⟩ | ⟨_, rfl, signed⟩ | unsigned :=
    readAtom_cases digits text
  · cases read.symm.trans (exact _)
    exact ⟨word, rfl, nonempty, plain, fun other _ => exact other⟩
  · obtain ⟨first, others, rfl, digit, plain, exact⟩ :=
      readMagnitude_eq_ok (signed.symm.trans read) ends
    refine ⟨'-' :: first :: others, rfl, List.cons_ne_nil _ _, ?_, ?_⟩
    · exact List.forall_mem_cons.mpr ⟨by decide, plain⟩
    · intro other otherEnds
      exact (readAtom_minus digits _ digit).trans (exact other otherEnds)
  · obtain ⟨first, others, rfl, digit, plain, exact⟩ :=
      readMagnitude_eq_ok (unsigned.symm.trans read) ends
    refine ⟨first :: others, rfl, List.cons_ne_nil _ _, plain, ?_⟩
    intro other otherEnds
    exact (readAtom_digit digits _ digit).trans (exact other otherEnds)

theorem readAtom_of_ends {digits : Nat} {word other : List Char} {value : Json}
    (read : readAtom digits word = .ok (value, [])) (ends : Ends other) :
    readAtom digits (word ++ other) = .ok (value, other) := by
  obtain ⟨found, split, _, _, exact⟩ := readAtom_eq_ok read ends_nil
  rw [List.append_nil] at split
  rw [split]
  exact exact other ends

end ExportAudit.Json
