import ExportAudit.Pattern.Wildcard

/-!
# Matching texts that slashes join

The parts of a wildcard pattern match a text piece by piece.  A text joined of
parts without slashes is cut by a match at its slashes, or within a part.
-/

namespace ExportAudit.Pattern

/-! ## Joined texts -/

/-- Texts with a slash between each two of them. -/
def joined (texts : List (List Char)) : List Char := ['/'].intercalate texts

theorem joined_nil : joined [] = [] := rfl

theorem joined_singleton (text : List Char) : joined [text] = text :=
  List.intercalate_singleton

theorem joined_cons {rest : List (List Char)} (text : List Char)
    (some : rest ≠ []) : joined (text :: rest) = text ++ '/' :: joined rest := by
  simp [joined, List.intercalate_cons_of_ne_nil some]

theorem joined_append {left right : List (List Char)} (someLeft : left ≠ [])
    (someRight : right ≠ []) :
    joined (left ++ right) = joined left ++ '/' :: joined right := by
  induction left with
  | nil => exact absurd rfl someLeft
  | cons text rest ih =>
      cases rest with
      | nil => simp [joined_cons text someRight, joined_singleton]
      | cons second others =>
          have some : second :: others ≠ [] := List.cons_ne_nil _ _
          rw [List.cons_append, joined_cons text (by simp), ih some,
            joined_cons text some, List.append_assoc, List.cons_append]

/-- A joined text is cut at one of its slashes. -/
theorem exists_cut_at_slash {texts : List (List Char)} {left right : List Char}
    (noSlash : ∀ text ∈ texts, '/' ∉ text)
    (cut : joined texts = left ++ '/' :: right) :
    ∃ before after, texts = before ++ after ∧ before ≠ [] ∧ after ≠ [] ∧
      joined before = left ∧ joined after = right := by
  have some : texts ≠ [] := by
    intro none
    rw [none, joined_nil] at cut
    simp at cut
  have parts := List.splitOn_intercalate '/' noSlash some
  rw [← joined, cut, List.splitOn_append_cons_self] at parts
  exact ⟨_, _, parts.symm, List.splitOn_ne_nil _ _, List.splitOn_ne_nil _ _,
    List.intercalate_splitOn '/', List.intercalate_splitOn '/'⟩

/-- A joined text is cut within one of its parts. -/
theorem exists_cut {texts : List (List Char)} {left right : List Char}
    (some : texts ≠ []) (cut : joined texts = left ++ right) :
    ∃ before opening closing after,
      texts = before ++ (opening ++ closing) :: after ∧
      joined (closing :: after) = right := by
  induction texts generalizing left with
  | nil => exact absurd rfl some
  | cons text rest ih =>
      by_cases none : rest = []
      · rw [none, joined_singleton] at cut
        exact ⟨[], left, right, [], by rw [none, cut, List.nil_append],
          joined_singleton right⟩
      · rw [joined_cons text none, List.append_eq_append_iff] at cut
        obtain ⟨more, whole, later⟩ | ⟨closing, whole, later⟩ := cut
        · cases more with
          | nil =>
              refine ⟨[], text, [], rest, by simp, ?_⟩
              rw [joined_cons [] none]
              exact later
          | cons slash others =>
              obtain ⟨before, opening, closing, after, split, right⟩ :=
                ih none (List.cons.inj later).2
              exact ⟨text :: before, opening, closing, after,
                congrArg (text :: ·) split, right⟩
        · refine ⟨[], left, closing, rest, by rw [whole, List.nil_append], ?_⟩
          rw [joined_cons closing none, later]

/-- A beginning without slashes belongs to the first part of a joined text. -/
theorem exists_opening {text begins right : List Char}
    {rest : List (List Char)} (noSlash : '/' ∉ begins)
    (cut : joined (text :: rest) = begins ++ right) :
    ∃ closing, text = begins ++ closing ∧ joined (closing :: rest) = right := by
  by_cases none : rest = []
  · rw [none, joined_singleton] at cut
    exact ⟨right, cut, by rw [none, joined_singleton]⟩
  · rw [joined_cons text none, List.append_eq_append_iff] at cut
    obtain ⟨more, whole, later⟩ | ⟨closing, whole, later⟩ := cut
    · cases more with
      | nil =>
          refine ⟨[], by rw [whole, List.append_nil, List.append_nil], ?_⟩
          rw [joined_cons [] none]
          exact later
      | cons slash others =>
          rw [whole, ← (List.cons.inj later).1] at noSlash
          simp at noSlash
    · exact ⟨closing, whole, by rw [joined_cons closing none, later]⟩

/-- Only empty texts are joined to nothing. -/
theorem eq_nil_of_joined {text : List Char} {rest : List (List Char)}
    (empty : joined (text :: rest) = []) : text = [] ∧ rest = [] := by
  by_cases none : rest = []
  · rw [none, joined_singleton] at empty
    exact ⟨empty, none⟩
  · rw [joined_cons text none] at empty
    simp at empty

/-! ## Matching piece by piece -/

theorem acceptsSuffix_iff {accepts : List Char → Bool} {text : List Char} :
    acceptsSuffix accepts text = true ↔
      ∃ left right, text = left ++ right ∧ accepts right = true := by
  induction text with
  | nil =>
      simp only [acceptsSuffix]
      constructor
      · intro known
        exact ⟨[], [], rfl, known⟩
      · intro split
        obtain ⟨left, right, same, known⟩ := split
        rwa [(List.append_eq_nil_iff.mp same.symm).2] at known
  | cons character rest ih =>
      simp only [acceptsSuffix, Bool.or_eq_true, ih]
      constructor
      · intro either
        cases either with
        | inl whole => exact ⟨[], character :: rest, rfl, whole⟩
        | inr later =>
            obtain ⟨left, right, same, known⟩ := later
            exact ⟨character :: left, right, by rw [same, List.cons_append],
              known⟩
      · intro split
        obtain ⟨left, right, same, known⟩ := split
        cases left with
        | nil => exact .inl (same ▸ known)
        | cons first others =>
            exact .inr ⟨others, right, (List.cons.inj same).2, known⟩

theorem accepts_nil {text : List Char} : accepts [] text = true ↔ text = [] :=
  List.isEmpty_iff

theorem accepts_anyText {rest : List Token} {text : List Char} :
    accepts (.anyText :: rest) text = true ↔
      ∃ left right, text = left ++ right ∧ accepts rest right = true :=
  acceptsSuffix_iff

/-- Whether a character can be in what a part of a pattern stands for. -/
def Token.takes (character : Char) : Token → Bool
  | .literal expected => character = expected
  | .anyCharacter => true
  | .anyText => true
  | .set members => members.contains character

theorem accepts_cons {token : Token} {rest : List Token} {text : List Char}
    (single : token ≠ .anyText) :
    accepts (token :: rest) text = true ↔
      ∃ character others, text = character :: others ∧
        token.takes character = true ∧ accepts rest others = true := by
  cases text with
  | nil => cases token <;> simp [accepts] at single ⊢
  | cons first later =>
      have step : accepts (token :: rest) (first :: later) =
          (token.takes first && accepts rest later) := by
        cases token with
        | anyText => exact absurd rfl single
        | literal | anyCharacter | set => rfl
      rw [step, Bool.and_eq_true]
      constructor
      · intro known
        exact ⟨first, later, rfl, known⟩
      · intro split
        obtain ⟨character, others, same, known⟩ := split
        cases same
        exact known

theorem accepts_append {left right : List Token} {text : List Char} :
    accepts (left ++ right) text = true ↔
      ∃ begins ends, text = begins ++ ends ∧ accepts left begins = true ∧
        accepts right ends = true := by
  induction left generalizing text with
  | nil =>
      constructor
      · intro known
        exact ⟨[], text, rfl, rfl, known⟩
      · intro split
        obtain ⟨begins, ends, same, empty, known⟩ := split
        rw [accepts_nil.mp empty] at same
        rwa [List.nil_append, same]
  | cons token rest ih =>
      by_cases any : token = .anyText
      · rw [any, List.cons_append, accepts_anyText]
        constructor
        · intro split
          obtain ⟨skipped, others, same, known⟩ := split
          obtain ⟨begins, ends, cut, first, second⟩ := ih.mp known
          exact ⟨skipped ++ begins, ends, by rw [same, cut, List.append_assoc],
            accepts_anyText.mpr ⟨skipped, begins, rfl, first⟩, second⟩
        · intro split
          obtain ⟨begins, ends, same, first, second⟩ := split
          obtain ⟨skipped, others, cut, known⟩ := accepts_anyText.mp first
          exact ⟨skipped, others ++ ends, by rw [same, cut, List.append_assoc],
            ih.mpr ⟨others, ends, rfl, known, second⟩⟩
      · rw [List.cons_append, accepts_cons any]
        constructor
        · intro split
          obtain ⟨character, others, same, taken, known⟩ := split
          obtain ⟨begins, ends, cut, first, second⟩ := ih.mp known
          exact ⟨character :: begins, ends, by rw [same, cut, List.cons_append],
            (accepts_cons any).mpr ⟨character, begins, rfl, taken, first⟩,
            second⟩
        · intro split
          obtain ⟨begins, ends, same, first, second⟩ := split
          obtain ⟨character, others, cut, taken, known⟩ :=
            (accepts_cons any).mp first
          exact ⟨character, others ++ ends, by rw [same, cut, List.cons_append],
            taken, ih.mpr ⟨others, ends, rfl, known, second⟩⟩

theorem accepts_literal {expected : Char} {rest : List Token}
    {text : List Char} :
    accepts (.literal expected :: rest) text = true ↔
      ∃ others, text = expected :: others ∧ accepts rest others = true := by
  have single : Token.literal expected ≠ .anyText := by simp
  rw [accepts_cons single]
  constructor
  · intro split
    obtain ⟨character, others, same, taken, known⟩ := split
    exact ⟨others, by rw [same, of_decide_eq_true taken], known⟩
  · intro split
    obtain ⟨others, same, known⟩ := split
    exact ⟨expected, others, same, decide_eq_true rfl, known⟩

theorem accepts_literals {text other : List Char} :
    accepts (text.map .literal) other = true ↔ other = text := by
  induction text generalizing other with
  | nil => exact accepts_nil
  | cons character rest ih =>
      rw [List.map_cons, accepts_literal]
      simp only [ih, exists_eq_right]

/-- What parts that take no slash stand for has no slash. -/
theorem not_mem_of_accepts {tokens : List Token} {text : List Char}
    (firm : ∀ token ∈ tokens, token.takes '/' = false)
    (known : accepts tokens text = true) : '/' ∉ text := by
  induction tokens generalizing text with
  | nil =>
      rw [accepts_nil.mp known]
      exact List.not_mem_nil
  | cons token rest ih =>
      obtain ⟨firmToken, firmRest⟩ := List.forall_mem_cons.mp firm
      have single : token ≠ .anyText := by
        intro any
        rw [any] at firmToken
        cases firmToken
      obtain ⟨character, others, rfl, taken, later⟩ :=
        (accepts_cons single).mp known
      intro member
      cases member with
      | head =>
          rw [firmToken] at taken
          cases taken
      | tail _ member => exact ih firmRest later member

theorem accepts_any (text : List Char) : accepts [.anyText] text = true :=
  accepts_anyText.mpr ⟨text, [], (List.append_nil text).symm, rfl⟩

/-- Two asterisks match any text. -/
theorem accepts_deep (text : List Char) :
    accepts (tokens ['*', '*']) text = true := by
  have deep : tokens ['*', '*'] = [.anyText, .anyText] := by
    simp [tokens]
  rw [deep]
  exact accepts_anyText.mpr ⟨[], text, rfl, accepts_any text⟩

theorem tokens_cons {character : Char} {rest : List Char}
    (noAsterisk : character ≠ '*') (noQuestion : character ≠ '?')
    (noOpening : character ≠ '[') :
    tokens (character :: rest) = .literal character :: tokens rest := by
  rw [tokens]
  · exact noAsterisk
  · exact noQuestion
  · exact noOpening

/-! ## Patterns that slashes join -/

/-- The parts of the texts that slashes join to a pattern, with the slashes. -/
def joinedTokens (parts : List (List Char)) : List Token :=
  [Token.literal '/'].intercalate (parts.map tokens)

theorem joinedTokens_singleton (part : List Char) :
    joinedTokens [part] = tokens part :=
  List.intercalate_singleton

theorem joinedTokens_cons {rest : List (List Char)} (part : List Char)
    (some : rest ≠ []) :
    joinedTokens (part :: rest) =
      tokens part ++ .literal '/' :: joinedTokens rest := by
  have mapped : rest.map tokens ≠ [] := by simpa using some
  simp [joinedTokens, List.intercalate_cons_of_ne_nil mapped]

/-- A match of joined parts is cut at the slash after the first of them. -/
theorem accepts_joinedTokens_cons {part text : List Char}
    {rest : List (List Char)} (some : rest ≠ []) :
    accepts (joinedTokens (part :: rest)) text = true ↔
      ∃ left right, text = left ++ '/' :: right ∧
        accepts (tokens part) left = true ∧
        accepts (joinedTokens rest) right = true := by
  rw [joinedTokens_cons part some, accepts_append]
  constructor
  · intro split
    obtain ⟨left, ends, same, first, later⟩ := split
    obtain ⟨right, slash, known⟩ := accepts_literal.mp later
    exact ⟨left, right, by rw [same, slash], first, known⟩
  · intro split
    obtain ⟨left, right, same, first, known⟩ := split
    exact ⟨left, '/' :: right, same, first, accepts_literal.mpr ⟨right, rfl, known⟩⟩

/-- A bracket expression that is closed ends within the text. -/
theorem bodyLength?_lt {text : List Char} {length : Nat}
    (closed : bodyLength? text = some length) : length < text.length := by
  simp only [bodyLength?, Option.map_eq_some_iff] at closed
  obtain ⟨index, found, same⟩ := closed
  obtain ⟨within, _⟩ := List.findIdx?_eq_some_iff_getElem.mp found
  rw [List.length_drop] at within
  omega

/-- A first character is not one that only a later text starts with. -/
theorem head?_append_eq_some_iff {text after : List Char} {character : Char}
    (other : after.head? ≠ some character) :
    (text ++ after).head? = some character ↔ text.head? = some character := by
  cases text with
  | nil => simp [other]
  | cons first rest => rfl

theorem bodyLength?_append {text after : List Char} (noBracket : ']' ∉ after)
    (noMark : after.head? ≠ some '!') :
    bodyLength? (text ++ after) = bodyLength? text := by
  have otherBracket : after.head? ≠ some ']' := fun same =>
    noBracket (List.mem_of_mem_head? same)
  have none : after.findIdx? (· = ']') = none := by
    rw [List.findIdx?_eq_none_iff]
    intro character member
    exact decide_eq_false fun same => noBracket (same ▸ member)
  have step : ∀ count : Nat, count ≤ text.length →
      (text ++ after).drop count = text.drop count ++ after :=
    fun count within => List.drop_append_of_le_length within
  simp only [bodyLength?, head?_append_eq_some_iff noMark]
  have mark : (if text.head? = some '!' then 1 else 0) ≤ text.length := by
    cases text with
    | nil => simp
    | cons first rest => split <;> simp
  generalize (if text.head? = some '!' then 1 else 0) = marked at mark ⊢
  simp only [step marked mark, head?_append_eq_some_iff otherBracket]
  have bracket : (if (text.drop marked).head? = some ']' then marked + 1
      else marked) ≤ text.length := by
    split
    · next starts =>
      have some := List.length_pos_of_mem (List.mem_of_mem_head? starts)
      rw [List.length_drop] at some
      omega
    · exact mark
  rw [step _ bracket, List.findIdx?_append, none, Option.map_none,
    Option.or_none]

/-- What follows a pattern and closes none of its brackets is read by
itself. -/
theorem tokens_append {text after : List Char} (noBracket : ']' ∉ after)
    (noMark : after.head? ≠ some '!') :
    tokens (text ++ after) = tokens text ++ tokens after := by
  fun_induction tokens text with
  | case1 => rfl
  | case2 rest ih | case3 rest ih => simp [tokens, ih]
  | case4 rest length closed ih =>
      have within := bodyLength?_lt closed
      rw [List.cons_append, tokens, bodyLength?_append noBracket noMark, closed]
      dsimp only
      rw [List.take_append_of_le_length (Nat.le_of_lt within),
        List.drop_append_of_le_length within, ih, List.cons_append]
  | case5 rest unclosed ih =>
      rw [List.cons_append, tokens, bodyLength?_append noBracket noMark, unclosed]
      simp only [List.cons_append, ih]
  | case6 character rest noAsterisk noQuestion noOpening ih =>
      rw [List.cons_append, tokens_cons noAsterisk noQuestion noOpening, ih,
        List.cons_append]

/-- A pattern without brackets is read character by character. -/
theorem tokens_append_of_noBracket {text after : List Char}
    (noBracket : '[' ∉ text) :
    tokens (text ++ after) = tokens text ++ tokens after := by
  fun_induction tokens text with
  | case1 => rfl
  | case2 rest ih | case3 rest ih =>
      have later := ih fun member => noBracket (List.mem_cons_of_mem _ member)
      simp [tokens, later]
  | case4 | case5 => simp at noBracket
  | case6 character rest noAsterisk noQuestion noOpening ih =>
      have later := ih fun member => noBracket (List.mem_cons_of_mem _ member)
      rw [List.cons_append, tokens_cons noAsterisk noQuestion noOpening, later,
        List.cons_append]

/-- A pattern without brackets is joined of its parts. -/
theorem tokens_joined {parts : List (List Char)} (some : parts ≠ [])
    (noBracket : ∀ part ∈ parts, '[' ∉ part) :
    tokens (joined parts) = joinedTokens parts := by
  induction parts with
  | nil => exact absurd rfl some
  | cons part rest ih =>
      by_cases none : rest = []
      · rw [none, joined_singleton, joinedTokens_singleton]
      · obtain ⟨first, later⟩ := List.forall_mem_cons.mp noBracket
        rw [joined_cons part none, joinedTokens_cons part none,
          tokens_append_of_noBracket first, ← ih none later,
          tokens_cons (by decide) (by decide) (by decide)]

/-- A pattern without wildcards is read as the text that it is. -/
theorem tokens_of_plain {text : List Char} (plain : hasWildcard text = false) :
    tokens text = text.map .literal := by
  induction text with
  | nil => simp [tokens]
  | cons character rest ih =>
      simp only [hasWildcard, List.any_cons, Bool.or_eq_false_iff,
        decide_eq_false_iff_not] at plain
      obtain ⟨⟨⟨noAsterisk, noQuestion⟩, noOpening⟩, others⟩ := plain
      rw [tokens_cons noAsterisk noQuestion noOpening, ih others, List.map_cons]

theorem accepts_plain {part name : List Char}
    (plain : hasWildcard part = false) :
    accepts (tokens part) name = true ↔ name = part := by
  rw [tokens_of_plain plain]
  exact accepts_literals

end ExportAudit.Pattern
