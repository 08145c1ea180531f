import ExportAudit.Json.Relaxed
import ExportAudit.Proofs.Json.Grammar

/-!
# Reading JSON with comments and trailing commas

Removing comments and then trailing commas leaves a plain text with the tokens
of the original one, literals included.  What is left of a text with comments
and trailing commas is thus read as the plain text is.
-/

namespace ExportAudit.Json.Relaxed

/-- What may stand between the tokens of a text with comments: a blank, a closed
block comment, or a line comment with the line feed that ends it. -/
inductive Separator : List Char → Prop where
  | blank {character : Char} (space : isSpace character = true) :
      Separator [character]
  | blockComment {body : List Char} (closed : ¬ ['*', '/'] <:+: body) :
      Separator ('/' :: '*' :: (body ++ ['*', '/']))
  | lineComment {body : List Char} (line : '\n' ∉ body) :
      Separator ('/' :: '/' :: (body ++ ['\n']))

/-- What may stand at the end of a text: nothing, or a line comment that the end
of the text ends. -/
inductive Ending : List Char → Prop where
  | nothing : Ending []
  | lineComment {body : List Char} (line : '\n' ∉ body) :
      Ending ('/' :: '/' :: body)

/-- Tokens with a comma added before some of those that close an array or an
object, unless the token before it opens the array or the object. -/
inductive Trailing : (previous : Option Token) → List Token → List Token →
    Prop where
  | done {previous : Option Token} : Trailing previous [] []
  | keep {previous : Option Token} {token : Token} {tokens decorated : List Token}
      (others : Trailing (some token) tokens decorated) :
      Trailing previous (token :: tokens) (token :: decorated)
  | comma {previous token : Token} {tokens decorated : List Token}
      (nonempty : ¬ previous.Opens) (closes : token.Closes)
      (others : Trailing (some token) tokens decorated) :
      Trailing (some previous) (token :: tokens)
        (.mark .comma :: token :: decorated)

/-- Words are no neighbours of one another. -/
def WordsApart (tokens : List Token) : Prop :=
  tokens.IsChain fun left right => left.IsWord → ¬ right.IsWord

/-! ## Comments -/

theorem ne_of_isWordCharacter {character other : Char}
    (word : isWordCharacter character = true)
    (noWord : isWordCharacter other = false) : character ≠ other := by
  intro same
  rw [same, noWord] at word
  cases word

theorem ne_of_isSpace {character other : Char}
    (space : isSpace character = true) (noSpace : isSpace other = false) :
    character ≠ other := by
  intro same
  rw [same, noSpace] at space
  cases space

theorem withoutComments_cons {character : Char} {rest : List Char}
    (noSlash : character ≠ '/') (noQuote : character ≠ '"') :
    withoutComments .plain (character :: rest) =
      character :: withoutComments .plain rest := by
  simp [withoutComments, noSlash]

theorem withoutComments_body {body rest : List Char} (closed : IsBody body) :
    withoutComments .literal (body ++ '"' :: rest) =
      body ++ '"' :: withoutComments .plain rest := by
  induction closed with
  | nil => rfl
  | @pair character body others ih => exact congrArg ('\\' :: character :: ·) ih
  | plain noEscape noQuote others ih =>
      simp [withoutComments, noEscape, ih]

theorem withoutComments_word {characters : List Char}
    (plain : ∀ character ∈ characters, isWordCharacter character = true)
    (rest : List Char) :
    withoutComments .plain (characters ++ rest) =
      characters ++ withoutComments .plain rest := by
  induction characters with
  | nil => rfl
  | cons first others ih =>
      obtain ⟨word, later⟩ := List.forall_mem_cons.mp plain
      rw [List.cons_append, List.cons_append,
        withoutComments_cons (ne_of_isWordCharacter word (by decide))
          (ne_of_isWordCharacter word (by decide)), ih later]

/-- Removing comments leaves every token. -/
theorem withoutComments_text (token : Token) (rest : List Char) :
    withoutComments .plain (token.text ++ rest) =
      token.text ++ withoutComments .plain rest := by
  cases token with
  | mark kind => cases kind <;> rfl
  | literal body closed =>
      simp only [Token.text, List.cons_append, List.append_assoc,
        List.nil_append]
      exact congrArg ('"' :: ·) (withoutComments_body closed)
  | word characters nonempty plain =>
      exact withoutComments_word plain rest

theorem withoutComments_blockComment {body rest : List Char}
    (closed : ¬ ['*', '/'] <:+: body) :
    withoutComments .blockComment (body ++ '*' :: '/' :: rest) =
      withoutComments .plain rest := by
  induction body with
  | nil => rfl
  | cons first others ih =>
      have closedOthers : ¬ ['*', '/'] <:+: others := fun inside =>
        closed (inside.trans (List.suffix_cons first others).isInfix)
      have goesOn : ∀ after, first = '*' →
          others ++ '*' :: '/' :: rest ≠ '/' :: after := by
        intro after star slash
        cases others with
        | nil => cases slash
        | cons second later =>
            cases slash
            exact closed ⟨[], later, by rw [star]; rfl⟩
      rw [List.cons_append, withoutComments, ih closedOthers]
      exact fun after star slash => goesOn after star slash

theorem withoutComments_lineComment {body rest : List Char}
    (line : '\n' ∉ body) :
    withoutComments .lineComment (body ++ '\n' :: rest) =
      '\n' :: withoutComments .plain rest := by
  induction body with
  | nil => rfl
  | cons first others ih =>
      rw [List.mem_cons, not_or] at line
      rw [List.cons_append, withoutComments, ih line.2]
      exact fun same => line.1 same.symm

/-- A line comment ends before a line feed or at the end of the text. -/
theorem withoutComments_line {body rest : List Char} (line : '\n' ∉ body)
    (ends : ∀ character ∈ rest.head?, character = '\n') :
    withoutComments .lineComment (body ++ rest) = withoutComments .plain rest := by
  cases rest with
  | cons first rest =>
      cases ends first rfl
      exact withoutComments_lineComment line
  | nil =>
      rw [List.append_nil]
      change withoutComments .lineComment body = []
      induction body with
      | nil => rfl
      | cons first body ih =>
          rw [List.mem_cons, not_or] at line
          rw [withoutComments, ih line.2]
          exact fun same => line.1 same.symm

theorem Ending.stripComments_eq_nil {ending : List Char} (ends : Ending ending) :
    stripComments ending = [] := by
  cases ends with
  | nothing => rfl
  | @lineComment body line =>
      have gone := @withoutComments_line body [] line (by simp)
      rwa [List.append_nil] at gone

/-- Removing comments leaves the tokens, with blanks between them. -/
theorem spells_stripComments {tokens : List Token} {text ending : List Char}
    (spells : Spells Separator tokens text)
    (words : WordsApart tokens) (ends : Ending ending) :
    Spells Blank tokens (stripComments (text ++ ending)) := by
  induction spells with
  | done =>
      rw [List.nil_append, ends.stripComments_eq_nil]
      exact .done
  | @separator _ rest _ known others ih =>
      rw [List.append_assoc]
      cases known with
      | @blank character space =>
          have kept : stripComments ([character] ++ (rest ++ ending)) =
              character :: stripComments (rest ++ ending) :=
            withoutComments_cons (ne_of_isSpace space (by decide))
              (ne_of_isSpace space (by decide))
          rw [kept]
          exact .separator (.single space) (ih words)
      | @blockComment body closed =>
          have gone : stripComments
              ('/' :: '*' :: (body ++ ['*', '/']) ++ (rest ++ ending)) =
              stripComments (rest ++ ending) := by
            change withoutComments .blockComment (body ++ ['*', '/'] ++ _) = _
            rw [List.append_assoc]
            exact withoutComments_blockComment closed
          rw [gone]
          exact ih words
      | @lineComment body line =>
          have gone : stripComments
              ('/' :: '/' :: (body ++ ['\n']) ++ (rest ++ ending)) =
              '\n' :: stripComments (rest ++ ending) := by
            change withoutComments .lineComment (body ++ ['\n'] ++ _) = _
            rw [List.append_assoc]
            exact withoutComments_lineComment line
          have feed : isSpace '\n' = true := by decide
          rw [gone]
          exact .separator (.single feed) (ih words)
  | @token token rest tokens _ others ih =>
      obtain ⟨next, later⟩ := List.isChain_cons.mp words
      rw [List.append_assoc, stripComments, withoutComments_text]
      exact .token (fun word => (ih later).ends fun other first =>
        next other first word) (ih later)

/-! ## Trailing commas -/

/-- What follows closes an array or an object if the next token does. -/
theorem closesNext_iff {tokens : List Token} {text : List Char}
    (spells : Spells Blank tokens text) :
    closesNext text = true ↔ ∃ token ∈ tokens.head?, token.Closes := by
  cases tokens with
  | nil => simp [closesNext, spells.skipSpace_eq_nil]
  | cons token others =>
      obtain ⟨rest, starts, _⟩ := spells.skipSpace_eq
      simp only [closesNext, starts, List.head?_cons, Option.mem_some_iff,
        exists_eq_left']
      cases token with
      | mark kind => cases kind <;> simp [Token.text, Mark.character, Token.Closes]
      | literal body closed => simp [Token.text, Token.Closes]
      | word characters nonempty plain =>
          cases characters with
          | nil => exact absurd rfl nonempty
          | cons first later =>
              have word := plain first List.mem_cons_self
              have bracket : first ≠ ']' :=
                ne_of_isWordCharacter word (by decide)
              have brace : first ≠ '}' :=
                ne_of_isWordCharacter word (by decide)
              simp [Token.text, Token.Closes, bracket, brace]

theorem closesNext_eq_false {tokens : List Token} {text : List Char}
    (spells : Spells Blank tokens text)
    (opens : ∀ token ∈ tokens.head?, ¬ token.Closes) :
    closesNext text = false := by
  rw [Bool.eq_false_iff, ne_eq, closesNext_iff spells]
  intro closing
  obtain ⟨token, first, closes⟩ := closing
  exact opens token first closes

theorem withoutTrailingCommas_cons {character : Char} {rest : List Char}
    (noComma : character ≠ ',') (noQuote : character ≠ '"') :
    withoutTrailingCommas false (character :: rest) =
      character :: withoutTrailingCommas false rest := by
  simp [withoutTrailingCommas]

theorem withoutTrailingCommas_body {body rest : List Char}
    (closed : IsBody body) :
    withoutTrailingCommas true (body ++ '"' :: rest) =
      body ++ '"' :: withoutTrailingCommas false rest := by
  induction closed with
  | nil => rfl
  | @pair character body others ih => exact congrArg ('\\' :: character :: ·) ih
  | plain noEscape noQuote others ih =>
      simp [withoutTrailingCommas, noEscape, ih]

theorem withoutTrailingCommas_word {characters : List Char}
    (plain : ∀ character ∈ characters, isWordCharacter character = true)
    (rest : List Char) :
    withoutTrailingCommas false (characters ++ rest) =
      characters ++ withoutTrailingCommas false rest := by
  induction characters with
  | nil => rfl
  | cons first others ih =>
      obtain ⟨word, later⟩ := List.forall_mem_cons.mp plain
      rw [List.cons_append, List.cons_append,
        withoutTrailingCommas_cons (ne_of_isWordCharacter word (by decide))
          (ne_of_isWordCharacter word (by decide)), ih later]

/-- Dropping trailing commas leaves every token, except a comma before what
closes an array or an object. -/
theorem withoutTrailingCommas_text {token : Token} {rest : List Char}
    (kept : token = .mark .comma → closesNext rest = false) :
    withoutTrailingCommas false (token.text ++ rest) =
      token.text ++ withoutTrailingCommas false rest := by
  cases token with
  | mark kind =>
      cases kind with
      | comma => exact if_neg (Bool.eq_false_iff.mp (kept rfl))
      | openArray | closeArray | openObject | closeObject | colon => rfl
  | literal body closed =>
      simp only [Token.text, List.cons_append, List.append_assoc,
        List.nil_append]
      exact congrArg ('"' :: ·) (withoutTrailingCommas_body closed)
  | word characters nonempty plain => exact withoutTrailingCommas_word plain rest

/-- A decoration starts as the tokens do, or with a comma. -/
theorem Trailing.forall_head {previous : Option Token}
    {tokens decorated : List Token} {holds : Token → Prop}
    (trailing : Trailing previous tokens decorated)
    (comma : holds (.mark .comma)) (all : ∀ token ∈ tokens.head?, holds token) :
    ∀ token ∈ decorated.head?, holds token := by
  cases trailing with
  | done => exact all
  | keep others => exact all
  | comma nonempty closes others =>
      intro token first
      cases first
      exact comma

theorem Trailing.isChain {previous : Option Token}
    {tokens decorated : List Token}
    (trailing : Trailing previous tokens decorated)
    (words : WordsApart tokens) : WordsApart decorated := by
  induction trailing with
  | done => exact .nil
  | keep others ih =>
      obtain ⟨next, chain⟩ := List.isChain_cons.mp words
      exact List.isChain_cons.mpr
        ⟨others.forall_head (fun _ => id) next, ih chain⟩
  | comma nonempty closes others ih =>
      obtain ⟨next, chain⟩ := List.isChain_cons.mp words
      exact .cons_cons nofun (List.isChain_cons.mpr
        ⟨others.forall_head (fun _ => id) next, ih chain⟩)

/-- Dropping trailing commas undoes the decoration of tokens. -/
theorem spells_stripTrailingCommas {previous : Option Token}
    {tokens decorated : List Token} {text : List Char}
    (spells : Spells Blank decorated text)
    (trailing : Trailing previous tokens decorated)
    (adjacent : tokens.IsChain Adjacent) :
    Spells Blank tokens (stripTrailingCommas text) := by
  induction spells generalizing previous tokens with
  | done =>
      cases trailing
      exact .done
  | @separator _ rest _ known others ih =>
      cases known with
      | @single character space =>
          have kept : stripTrailingCommas ([character] ++ rest) =
              character :: stripTrailingCommas rest :=
            withoutTrailingCommas_cons (ne_of_isSpace space (by decide))
              (ne_of_isSpace space (by decide))
          rw [kept]
          exact .separator (.single space) (ih trailing adjacent)
  | @token token rest decorated ends others ih =>
      cases trailing with
      | keep later =>
          obtain ⟨next, chain⟩ := List.isChain_cons.mp adjacent
          have kept : token = .mark .comma → closesNext rest = false := by
            intro comma
            exact closesNext_eq_false others (later.forall_head
              (by simp [Token.Closes]) fun other first =>
                (next other first).comma comma)
          have rest := ih later chain
          rw [stripTrailingCommas, withoutTrailingCommas_text kept]
          exact .token (fun word => rest.ends fun other first =>
            (next other first).words word) rest
      | comma nonempty closes later =>
          have dropped : closesNext rest = true :=
            (closesNext_iff others).mpr ⟨_, rfl, closes⟩
          have gone : stripTrailingCommas (',' :: rest) =
              stripTrailingCommas rest := if_pos dropped
          have rest := @ih none _ (.keep later) adjacent
          rwa [← gone] at rest

/-! ## Plain texts -/

theorem stripComments_of_plain {tokens : List Token} {text : List Char}
    (spells : Spells Blank tokens text) : stripComments text = text := by
  induction spells with
  | done => rfl
  | @separator _ rest _ known others ih =>
      cases known with
      | single space =>
          refine (withoutComments_cons (ne_of_isSpace space (by decide))
            (ne_of_isSpace space (by decide))).trans ?_
          exact congrArg _ ih
  | @token token rest _ ends others ih =>
      rw [stripComments] at ih ⊢
      rw [withoutComments_text, ih]

theorem stripTrailingCommas_of_plain {tokens : List Token} {text : List Char}
    (spells : Spells Blank tokens text)
    (adjacent : tokens.IsChain Adjacent) : stripTrailingCommas text = text := by
  induction spells with
  | done => rfl
  | @separator _ rest _ known others ih =>
      cases known with
      | single space =>
          refine (withoutTrailingCommas_cons (ne_of_isSpace space (by decide))
            (ne_of_isSpace space (by decide))).trans ?_
          exact congrArg _ (ih adjacent)
  | @token token rest _ ends others ih =>
      obtain ⟨next, chain⟩ := List.isChain_cons.mp adjacent
      have kept : token = .mark .comma → closesNext rest = false := by
        intro comma
        exact closesNext_eq_false others fun other first =>
          (next other first).comma comma
      have same := ih chain
      rw [stripTrailingCommas] at same ⊢
      rw [withoutTrailingCommas_text kept, same]

/-- The tokens of a value can stand side by side. -/
theorem isChain_of_denotes {limits : Limits} {tokens : List Token} {value : Json}
    (denotes : Denotes limits tokens (.value value)) :
    tokens.IsChain Adjacent :=
  (List.isChain_append.mp (denotes.isChain .colon)).1

/-- A text that JSON accepts is left unchanged, so that it keeps its value. -/
theorem read_plain {text : List Char} {value : Json}
    (accepted : readWithin limits text = .ok value) :
    stripTrailingCommas (stripComments text) = text ∧ read text = .ok value := by
  obtain ⟨tokens, spells, denotes⟩ := readWithin_eq_ok.mp accepted
  have unchanged : stripTrailingCommas (stripComments text) = text := by
    rw [stripComments_of_plain spells]
    exact stripTrailingCommas_of_plain spells (isChain_of_denotes denotes)
  refine ⟨unchanged, ?_⟩
  rw [read, unchanged]
  exact accepted

/-- The tokens of a text that JSON accepts can stand side by side. -/
theorem isChain_of_accepted {tokens : List Token} {text : List Char}
    {value : Json} (accepted : readWithin limits text = .ok value)
    (spells : Spells Blank tokens text) : tokens.IsChain Adjacent := by
  obtain ⟨known, others, denotes⟩ := readWithin_eq_ok.mp accepted
  cases spells.unique others
  exact isChain_of_denotes denotes

/-- Separators between tokens, commas before what closes an array or an object,
and a comment at the end keep the tokens and the value of a text. -/
theorem read_separated {tokens decorated : List Token}
    {plain text ending : List Char} {value : Json}
    (accepted : readWithin limits plain = .ok value)
    (spells : Spells Blank tokens plain)
    (trailing : Trailing none tokens decorated)
    (separated : Spells Separator decorated text) (ends : Ending ending) :
    Spells Blank tokens (stripTrailingCommas (stripComments (text ++ ending))) ∧
      read (text ++ ending) = .ok value := by
  have adjacent := isChain_of_accepted accepted spells
  have words := trailing.isChain (adjacent.imp fun _ _ near => near.words)
  have stripped := spells_stripTrailingCommas
    (spells_stripComments separated words ends) trailing adjacent
  obtain ⟨known, others, denotes⟩ := readWithin_eq_ok.mp accepted
  cases spells.unique others
  exact ⟨stripped, readWithin_eq_ok.mpr ⟨_, stripped, denotes⟩⟩

/-- A text that JSON accepts is left unchanged.  Blanks and comments between its
tokens and commas before its closing brackets and braces leave its tokens and
its value. -/
theorem read_decorated {text : List Char} {value : Json}
    (accepted : readWithin limits text = .ok value) :
    stripTrailingCommas (stripComments text) = text ∧ read text = .ok value ∧
      (∃ tokens, Spells Blank tokens text) ∧
      ∀ tokens decorated relaxed, Spells Blank tokens text →
        Trailing none tokens decorated → Spells Separator decorated relaxed →
        Spells Blank tokens (stripTrailingCommas (stripComments relaxed)) ∧
          read relaxed = .ok value := by
  obtain ⟨unchanged, same⟩ := read_plain accepted
  obtain ⟨known, spelled, _⟩ := readWithin_eq_ok.mp accepted
  refine ⟨unchanged, same, ⟨known, spelled⟩, ?_⟩
  intro tokens decorated relaxed spells trailing separated
  simpa using read_separated accepted spells trailing separated .nothing

/-- The token of a string literal that looks like a comment. -/
def commentLiteral : Token :=
  .literal "/*,]".toList
    (.plain (by decide) (by decide) (.plain (by decide) (by decide)
      (.plain (by decide) (by decide) (.plain (by decide) (by decide) .nil))))

/-- The token of a number of one digit. -/
def digitWord : Token :=
  .word ['1'] (List.cons_ne_nil _ _) (List.all_eq_true.mp rfl)

theorem read_decorated_list :
    readWithin limits "[\"/*,]\",1]".toList =
        .ok (.array [.string "/*,]", .integer 1]) ∧
      read "[\"/*,]\" /* ] */,1//\n,]".toList =
        .ok (.array [.string "/*,]", .integer 1]) := by
  have denotes : Denotes limits [.mark .openArray, commentLiteral, .mark .comma,
      digitWord, .mark .closeArray]
      (.value (.array [.string "/*,]", .integer 1])) :=
    .array (.item (.literal rfl) (.lastItem (.word rfl)))
  have plain : Spells Blank [.mark .openArray, commentLiteral, .mark .comma,
      digitWord, .mark .closeArray] "[\"/*,]\",1]".toList :=
    .mark .openArray (.literal _ (.mark .comma
      (@Spells.token _ digitWord _ _ (fun _ => ends_cons.mpr (by decide))
        (.mark .closeArray .done))))
  have trailing : Trailing none [.mark .openArray, commentLiteral, .mark .comma,
      digitWord, .mark .closeArray] [.mark .openArray, commentLiteral,
      .mark .comma, digitWord, .mark .comma, .mark .closeArray] :=
    .keep (.keep (.keep (.keep (.comma (by simp [digitWord, Token.Opens])
      (.inl rfl) .done))))
  have block : Separator "/* ] */".toList :=
    @Separator.blockComment " ] ".toList (by decide)
  have line : Separator "//\n".toList := @Separator.lineComment [] (by decide)
  have separated : Spells Separator [.mark .openArray, commentLiteral,
      .mark .comma, digitWord, .mark .comma, .mark .closeArray]
      "[\"/*,]\" /* ] */,1//\n,]".toList :=
    .mark .openArray (.literal _ (.separator (.blank (by decide : isSpace ' ' = true))
      (.separator block (.mark .comma
        (@Spells.token _ digitWord _ _ (fun _ => ends_cons.mpr (by decide))
          (.separator line (.mark .comma (.mark .closeArray .done))))))))
  have accepted := readWithin_eq_ok.mpr ⟨_, plain, denotes⟩
  exact ⟨accepted,
    ((read_decorated accepted).2.2.2 _ _ _ plain trailing separated).2⟩

end ExportAudit.Json.Relaxed
