import ExportAudit.Proofs.Json.Commented

/-!
# Pieces and tokens

The pieces of a text with comments that are neither comments nor blank make up
its tokens.  A text of tokens and separators has no comment that is not closed,
and none inside a word (`exists_lexed`).  The other way round, pieces
without such comments form tokens, and the same tokens are left once the comments
are removed (`Consists.exists_tokenized`).
-/

namespace ExportAudit.Json.Relaxed

/-- The pieces of a token. -/
def piecesOf : Token → List Piece
  | .mark kind => [.character kind.character]
  | .literal body _ => [.literal body]
  | .word characters _ _ => characters.map .character

/-- Whether a piece is neither a comment nor blank. -/
def Piece.isSolid : Piece → Bool
  | .character value => !isSpace value
  | .literal _ | .openLiteral _ => true
  | .lineComment _ | .blockComment _ | .openComment _ => false

/-- Pieces start with comments and then a character of a word. -/
def ResumesWord (pieces : List Piece) : Prop :=
  ∃ comments second after, pieces = comments ++ .character second :: after ∧
    comments ≠ [] ∧ (∀ piece ∈ comments, piece.isComment = true) ∧
    isWordCharacter second = true

/-- Nothing but comments stands between two characters of words. -/
def SplitsWord (pieces : List Piece) : Prop :=
  ∃ first after, isWordCharacter first = true ∧ ResumesWord after ∧
    .character first :: after <:+ pieces

/-! ## Characters -/

theorem character_cases (character : Char) :
    isSpace character = true ∨ (∃ kind : Mark, character = kind.character) ∨
      isWordCharacter character = true ∨ character = '"' ∨ character = '/' := by
  by_cases word : isWordCharacter character = true
  · exact .inr (.inr (.inl word))
  · simp only [isWordCharacter, Bool.and_eq_true, Bool.not_eq_true', not_and_or,
      Bool.not_eq_false, List.any_eq_true, decide_eq_true_eq, not_not] at word
    obtain ((space | ⟨kind, _, same⟩) | quote) | slash := word
    · exact .inl space
    · exact .inr (.inl ⟨kind, same.symm⟩)
    · exact .inr (.inr (.inr (.inl quote)))
    · exact .inr (.inr (.inr (.inr slash)))

theorem fits_character {value : Char} (noQuote : value ≠ '"')
    (noSlash : value ≠ '/') (rest : List Char) :
    (Piece.character value).Fits rest :=
  .character noQuote fun opens => noSlash (opensComment_cons.mp opens).1

theorem fits_word {value : Char} (word : isWordCharacter value = true)
    (rest : List Char) : (Piece.character value).Fits rest :=
  fits_character (ne_of_isWordCharacter word (by decide))
    (ne_of_isWordCharacter word (by decide)) rest

theorem fits_space {value : Char} (space : isSpace value = true)
    (rest : List Char) : (Piece.character value).Fits rest :=
  fits_character (ne_of_isSpace space (by decide))
    (ne_of_isSpace space (by decide)) rest

theorem fits_mark (kind : Mark) (rest : List Char) :
    (Piece.character kind.character).Fits rest := by
  refine fits_character ?_ ?_ rest <;> cases kind <;> decide

/-! ## Comments inside words -/

theorem resumesWord_cons {piece : Piece} {pieces : List Piece}
    (resumes : ResumesWord (piece :: pieces)) : piece.isComment = true := by
  obtain ⟨comments, second, after, same, nonempty, all, _⟩ := resumes
  cases comments with
  | nil => exact absurd rfl nonempty
  | cons first comments =>
      rw [(List.cons.inj same).1]
      exact all first List.mem_cons_self

theorem splitsWord_cons {piece : Piece} {pieces : List Piece} :
    SplitsWord (piece :: pieces) ↔
      (∃ first, piece = .character first ∧ isWordCharacter first = true ∧
        ResumesWord pieces) ∨ SplitsWord pieces := by
  constructor
  · rintro ⟨first, after, word, resumes, ends⟩
    cases List.suffix_cons_iff.mp ends with
    | inl same =>
        cases same
        exact .inl ⟨first, rfl, word, resumes⟩
    | inr later => exact .inr ⟨first, after, word, resumes, later⟩
  · rintro (⟨first, rfl, word, resumes⟩ | ⟨first, after, word, resumes, ends⟩)
    · exact ⟨first, pieces, word, resumes, List.suffix_rfl⟩
    · exact ⟨first, after, word, resumes, ends.trans (List.suffix_cons _ _)⟩

/-- Comments cannot stand inside the characters of one token. -/
theorem splitsWord_word {characters : List Char} {pieces : List Piece}
    (splits : SplitsWord (characters.map .character ++ pieces)) :
    (characters ≠ [] ∧ ResumesWord pieces) ∨ SplitsWord pieces := by
  induction characters with
  | nil => exact .inr splits
  | cons first others ih =>
      have nonempty := List.cons_ne_nil first others
      rw [List.map_cons, List.cons_append, splitsWord_cons] at splits
      cases splits with
      | inl here =>
          obtain ⟨_, _, _, resumes⟩ := here
          cases others with
          | nil => exact .inl ⟨nonempty, resumes⟩
          | cons second _ => cases resumesWord_cons resumes
      | inr later => exact (ih later).imp_left fun found => ⟨nonempty, found.2⟩

/-! ## Texts of tokens and separators -/

/-- Pieces are those of some tokens with separators between them. -/
structure Lexed (tokens : List Token) (pieces : List Piece) : Prop where
  solid : pieces.filter Piece.isSolid = tokens.flatMap piecesOf
  closed : ∀ body, Piece.openComment body ∉ pieces
  whole : WordsApart tokens → ¬ SplitsWord pieces

theorem Lexed.separator {tokens : List Token} {pieces : List Piece}
    {piece : Piece} (blank : piece.isSolid = false)
    (closed : ∀ body, piece ≠ .openComment body)
    (lexed : Lexed tokens pieces) : Lexed tokens (piece :: pieces) where
  solid := by
    rw [List.filter_cons_of_neg (Bool.eq_false_iff.mp blank), lexed.solid]
  closed body member := by
    cases List.mem_cons.mp member with
    | inl same => exact closed body same.symm
    | inr later => exact lexed.closed body later
  whole apart splits := by
    cases splitsWord_cons.mp splits with
    | inl here =>
        obtain ⟨first, rfl, word, _⟩ := here
        rw [Piece.isSolid, isSpace_of_word word] at blank
        cases blank
    | inr later => exact lexed.whole apart later

theorem isSolid_of_mem_piecesOf {token : Token} {piece : Piece}
    (member : piece ∈ piecesOf token) : piece.isSolid = true := by
  cases token with
  | mark kind =>
      rw [List.mem_singleton.mp member, Piece.isSolid, isSpace_mark]
      rfl
  | literal body closed =>
      rw [List.mem_singleton.mp member]
      rfl
  | word characters nonempty plain =>
      obtain ⟨character, inside, rfl⟩ := List.mem_map.mp member
      rw [Piece.isSolid, isSpace_of_word (plain character inside)]
      rfl

/-- A token whose pieces start with a character of a word is a word. -/
theorem isWord_of_piecesOf {token : Token} {character : Char}
    {others : List Piece} (word : isWordCharacter character = true)
    (starts : piecesOf token = .character character :: others) :
    token.IsWord := by
  cases token with
  | mark kind =>
      cases starts
      rw [isWordCharacter_mark] at word
      cases word
  | literal body closed => cases starts
  | word characters nonempty plain => trivial

theorem piecesOf_ne_nil (token : Token) : piecesOf token ≠ [] := by
  cases token with
  | mark kind => exact List.cons_ne_nil _ _
  | literal body closed => exact List.cons_ne_nil _ _
  | word characters nonempty plain => simpa [piecesOf] using nonempty

theorem openLiteral_notMem_piecesOf (token : Token) (body : List Char) :
    .openLiteral body ∉ piecesOf token := by
  intro member
  cases token with
  | mark kind => cases List.mem_singleton.mp member
  | literal other closed => cases List.mem_singleton.mp member
  | word characters nonempty plain =>
      obtain ⟨_, _, same⟩ := List.mem_map.mp member
      cases same

theorem slash_notMem_piecesOf (token : Token) :
    .character '/' ∉ piecesOf token := by
  intro member
  cases token with
  | mark kind => cases kind <;> cases List.mem_singleton.mp member
  | literal body closed => cases List.mem_singleton.mp member
  | word characters nonempty plain =>
      obtain ⟨character, inside, same⟩ := List.mem_map.mp member
      have word := plain character inside
      rw [Piece.character.inj same] at word
      exact absurd word (by decide)

/-- Where a word goes on behind comments, the next token is a word. -/
theorem Lexed.isWord_of_resumesWord {tokens : List Token} {pieces : List Piece}
    (lexed : Lexed tokens pieces) (resumes : ResumesWord pieces) :
    ∃ token ∈ tokens.head?, token.IsWord := by
  obtain ⟨comments, second, after, rfl, _, all, word⟩ := resumes
  have blank : comments.filter Piece.isSolid = [] := by
    refine List.filter_eq_nil_iff.mpr fun piece member => ?_
    have comment := all piece member
    cases piece with
    | lineComment | blockComment | openComment => exact Bool.false_ne_true
    | character | literal | openLiteral => cases comment
  have solid := lexed.solid
  rw [List.filter_append, blank, List.nil_append, List.filter_cons_of_pos
    (by simp [Piece.isSolid, isSpace_of_word word])] at solid
  cases tokens with
  | nil => cases solid
  | cons token others =>
      refine ⟨token, rfl, ?_⟩
      rw [List.flatMap_cons] at solid
      cases pieces : piecesOf token with
      | nil => exact absurd pieces (piecesOf_ne_nil token)
      | cons first rest =>
          rw [pieces] at solid
          cases (List.cons.inj solid).1
          exact isWord_of_piecesOf word pieces

theorem Lexed.token {tokens : List Token} {pieces : List Piece} (token : Token)
    (lexed : Lexed tokens pieces) :
    Lexed (token :: tokens) (piecesOf token ++ pieces) where
  solid := by
    rw [List.filter_append, lexed.solid, List.flatMap_cons,
      List.filter_eq_self.mpr fun _ => isSolid_of_mem_piecesOf]
  closed body member := by
    cases List.mem_append.mp member with
    | inl inside => cases isSolid_of_mem_piecesOf inside
    | inr later => exact lexed.closed body later
  whole apart splits := by
    obtain ⟨next, later⟩ := List.isChain_cons.mp apart
    refine lexed.whole later ?_
    cases token with
    | mark kind =>
        refine (splitsWord_cons.mp splits).resolve_left fun here => ?_
        obtain ⟨first, same, word, _⟩ := here
        cases same
        rw [isWordCharacter_mark] at word
        cases word
    | literal body closed =>
        refine (splitsWord_cons.mp splits).resolve_left fun here => ?_
        obtain ⟨first, same, _⟩ := here
        cases same
    | word characters nonempty plain =>
        refine (splitsWord_word splits).resolve_left fun here => ?_
        obtain ⟨other, first, word⟩ := lexed.isWord_of_resumesWord here.2
        exact next other first trivial word

theorem Consists.word {characters rest : List Char} {pieces : List Piece}
    (plain : ∀ character ∈ characters, isWordCharacter character = true)
    (others : Consists pieces rest) :
    Consists (characters.map .character ++ pieces) (characters ++ rest) := by
  induction characters with
  | nil => exact others
  | cons first characters ih =>
      rw [List.forall_mem_cons] at plain
      exact .cons (fits_word plain.1 _) (ih plain.2)

theorem Consists.token {rest : List Char} {pieces : List Piece} (token : Token)
    (others : Consists pieces rest) :
    Consists (piecesOf token ++ pieces) (token.text ++ rest) := by
  cases token with
  | mark kind => exact .cons (fits_mark kind rest) others
  | literal body closed => exact .cons (.literal closed) others
  | word characters nonempty plain => exact others.word plain

theorem spells_separator {tokens : List Token} {text : List Char}
    (spells : Spells Blank tokens text) : Spells Separator tokens text := by
  induction spells with
  | done => exact .done
  | separator known _ ih =>
      cases known with
      | single space => exact .separator (.blank space) ih
  | token ends _ ih => exact .token ends ih

/-- A text of tokens and separators consists of pieces of these tokens. -/
theorem exists_lexed {tokens : List Token} {text ending : List Char}
    (spells : Spells Separator tokens text) (ends : Ending ending) :
    ∃ pieces, Consists pieces (text ++ ending) ∧ Lexed tokens pieces := by
  have nothing : Lexed [] [] := ⟨rfl, by simp, fun _ splits => by
    obtain ⟨_, _, _, _, inside⟩ := splits
    simp at inside⟩
  induction spells with
  | done =>
      cases ends with
      | nothing => exact ⟨[], .nil, nothing⟩
      | @lineComment body line =>
          have comment : (Piece.lineComment body).Fits [] := .lineComment line (by simp)
          have consists := Consists.cons comment .nil
          rw [List.append_nil] at consists
          exact ⟨_, consists, nothing.separator rfl nofun⟩
  | @separator _ rest _ known _ ih =>
      obtain ⟨pieces, others, lexed⟩ := ih
      rw [List.append_assoc]
      cases known with
      | @blank character space =>
          exact ⟨.character character :: pieces, .cons (fits_space space _) others,
            lexed.separator (by simp [Piece.isSolid, space]) nofun⟩
      | @blockComment body closed =>
          exact ⟨.blockComment body :: pieces, .cons (.blockComment closed) others,
            lexed.separator rfl nofun⟩
      | @lineComment body line =>
          have comment : (Piece.lineComment body).Fits ('\n' :: (rest ++ ending)) :=
            .lineComment line (by simp)
          have consists := Consists.cons comment
            (.cons (fits_space (by decide : isSpace '\n' = true) _) others)
          have fed : Lexed _ (.character '\n' :: pieces) :=
            lexed.separator (by decide) nofun
          refine ⟨.lineComment body :: .character '\n' :: pieces, ?_,
            fed.separator rfl nofun⟩
          simpa [Piece.text] using consists
  | @token token _ _ _ _ ih =>
      obtain ⟨pieces, others, lexed⟩ := ih
      rw [List.append_assoc]
      exact ⟨piecesOf token ++ pieces, others.token token, lexed.token token⟩

/-! ## Pieces that form tokens -/

/-- A text consists of some tokens with separators between them, up to a comment
at its end, and the tokens are left once its comments are removed. -/
inductive Tokenized (tokens : List Token) : List Char → Prop where
  | intro {text ending : List Char} (separated : Spells Separator tokens text)
      (ends : Ending ending)
      (stripped : Spells Blank tokens (stripComments (text ++ ending))) :
      Tokenized tokens (text ++ ending)

theorem ends_blank {separator : List Char} (known : Blank separator)
    (rest : List Char) : Ends (separator ++ rest) := by
  cases known with
  | single space => exact ends_cons.mpr (isWordCharacter_of_space space)

theorem ends_separator {separator : List Char} (known : Separator separator)
    (rest : List Char) : Ends (separator ++ rest) := by
  cases known with
  | blank space => exact ends_cons.mpr (isWordCharacter_of_space space)
  | blockComment | lineComment => exact ends_cons.mpr (by decide)

theorem ends_ending {ending : List Char} (known : Ending ending) :
    Ends ending := by
  cases known with
  | nothing => exact ends_nil
  | lineComment => exact ends_cons.mpr (by decide)

theorem ends_append_iff {text ending : List Char} (known : Ending ending) :
    Ends (text ++ ending) ↔ Ends text := by
  cases text with
  | nil => exact iff_of_true (ends_ending known) ends_nil
  | cons first others => exact ends_cons.trans ends_cons.symm

theorem stripComments_cons {value : Char} {rest : List Char}
    (fits : (Piece.character value).Fits rest) :
    stripComments (value :: rest) = value :: stripComments rest :=
  stripComments_piece fits

/-- A text that starts with a character of a word still does once its comments
are removed. -/
theorem not_ends_stripComments {text : List Char} (starts : ¬ Ends text) :
    ¬ Ends (stripComments text) := by
  cases text with
  | nil => exact absurd ends_nil starts
  | cons first rest =>
      rw [ends_cons, Bool.not_eq_false] at starts
      rw [stripComments_cons (fits_word starts rest), ends_cons, starts]
      exact nofun

/-- What comes first once comments are removed stands behind comments. -/
theorem exists_comments {pieces : List Piece} {text : List Char}
    {character : Char} (consists : Consists pieces text)
    (first : character ∈ (stripComments text).head?)
    (word : isWordCharacter character = true) :
    ∃ comments after, pieces = comments ++ .character character :: after ∧
      ∀ piece ∈ comments, piece.isComment = true := by
  induction consists with
  | nil => cases first
  | @cons piece rest pieces fits _ ih =>
      rw [stripComments_piece fits] at first
      cases comment : piece.isComment with
      | true =>
          rw [if_pos comment] at first
          obtain ⟨comments, after, rfl, all⟩ := ih first
          exact ⟨piece :: comments, after, rfl,
            List.forall_mem_cons.mpr ⟨comment, all⟩⟩
      | false =>
          rw [if_neg (Bool.eq_false_iff.mp comment)] at first
          cases piece with
          | character value =>
              cases first
              exact ⟨[], pieces, rfl, by simp⟩
          | literal | openLiteral =>
              cases first
              exact absurd word (by decide)
          | lineComment | blockComment | openComment => cases comment

/-- Removing comments does not bring the characters of a word together unless
comments stand between them. -/
theorem ends_stripComments {pieces : List Piece} {text : List Char}
    (consists : Consists pieces text) (ends : Ends text)
    (whole : ¬ ResumesWord pieces) : Ends (stripComments text) := by
  intro character first
  by_contra word
  rw [Bool.not_eq_false] at word
  obtain ⟨comments, after, rfl, all⟩ := exists_comments consists first word
  cases comments with
  | nil =>
      cases consists
      rw [Piece.text, List.singleton_append, ends_cons, word] at ends
      cases ends
  | cons comment others =>
      exact whole ⟨comment :: others, character, after, rfl,
        List.cons_ne_nil _ _, all, word⟩

/-- A blank in front belongs to no token. -/
theorem spells_of_space {tokens : List Token} {text : List Char}
    {character : Char} (space : isSpace character = true)
    (spells : Spells Separator tokens (character :: text)) :
    Spells Separator tokens text := by
  generalize whole : character :: text = all at spells
  cases spells with
  | done => cases whole
  | separator known others =>
      cases known with
      | blank =>
          cases whole
          exact others
      | blockComment | lineComment =>
          cases whole
          exact absurd space (by decide)
  | @token token rest =>
      have kept := skipSpace_text token rest
      rw [← whole, skipSpace_cons space] at kept
      have shorter : (skipSpace text).length ≤ text.length :=
        (List.dropWhile_suffix isSpace).length_le
      rw [kept, List.length_cons] at shorter
      exact absurd shorter (Nat.not_succ_le_self _)

namespace Tokenized

variable {tokens : List Token} {rest : List Char}

theorem space {character : Char} (space : isSpace character = true)
    (others : Tokenized tokens rest) : Tokenized tokens (character :: rest) := by
  cases others with
  | @intro text ending separated ends stripped =>
      refine @intro tokens (character :: text) ending
        (.separator (.blank space) separated) ends ?_
      rw [List.cons_append, stripComments_cons (fits_space space _)]
      exact .separator (.single space) stripped

theorem blockComment {body : List Char} (closed : ¬ ['*', '/'] <:+: body)
    (others : Tokenized tokens rest) :
    Tokenized tokens ((Piece.blockComment body).text ++ rest) := by
  cases others with
  | @intro text ending separated ends stripped =>
      rw [← List.append_assoc]
      refine intro (.separator (.blockComment closed) separated) ends ?_
      rw [List.append_assoc, stripComments_piece (.blockComment closed)]
      exact stripped

/-- A line comment is a separator together with the line feed behind it, or it
ends the text. -/
theorem lineComment {body : List Char} (line : '\n' ∉ body)
    (feed : ∀ character ∈ rest.head?, character = '\n')
    (others : Tokenized tokens rest) :
    Tokenized tokens ((Piece.lineComment body).text ++ rest) := by
  cases others with
  | @intro text ending separated ends stripped =>
      have gone := stripComments_piece (.lineComment line feed)
      cases text with
      | nil =>
          cases ends with
          | lineComment => cases feed '/' rfl
          | nothing =>
              rw [List.nil_append] at gone stripped
              rw [← gone.trans (List.nil_append _)] at stripped
              have ending : Ending ((Piece.lineComment body).text ++ []) := by
                simpa [Piece.text] using .lineComment line
              exact @intro tokens [] _ separated ending stripped
      | cons first text =>
          cases feed first rfl
          have others := spells_of_space (by decide) separated
          have more := @intro tokens ('/' :: '/' :: (body ++ ['\n']) ++ text) ending
            (.separator (.lineComment line) others) ends
          have same : '/' :: '/' :: (body ++ ['\n']) ++ text ++ ending =
              (Piece.lineComment body).text ++ ('\n' :: text ++ ending) := by
            simp [Piece.text]
          rw [same, gone] at more
          exact more stripped

theorem token {token : Token} (ends : token.IsWord → Ends rest)
    (endsStripped : token.IsWord → Ends (stripComments rest))
    (others : Tokenized tokens rest) :
    Tokenized (token :: tokens) (token.text ++ rest) := by
  cases others with
  | @intro text ending separated known stripped =>
      rw [← List.append_assoc]
      refine intro (.token (fun word => ?_) separated) known ?_
      · exact (ends_append_iff known).mp (ends word)
      · rw [List.append_assoc, stripComments, withoutComments_text]
        exact .token endsStripped stripped

/-- A character of a word extends the word that starts behind it. -/
theorem extend {first : Char} (word : isWordCharacter first = true)
    (starts : ¬ Ends rest) (others : Tokenized tokens rest) :
    ∃ extended, Tokenized extended (first :: rest) := by
  cases others with
  | @intro text ending separated known stripped =>
      have begins : ¬ Ends text := mt (ends_append_iff known).mpr starts
      obtain ⟨characters, nonempty, plain, others, rfl⟩ :=
        Spells.exists_word ends_separator separated begins
      refine ⟨_, @intro _ (first :: text) ending
        (Spells.extend ends_separator word separated begins) known ?_⟩
      rw [List.cons_append, stripComments_cons (fits_word word _)]
      exact Spells.extend ends_blank word stripped (not_ends_stripComments starts)

end Tokenized

/-- Pieces that form tokens: literals and comments are closed, no slash stands
alone, and no comments stand inside a word. -/
structure FormTokens (pieces : List Piece) : Prop where
  literals : ∀ body, Piece.openLiteral body ∉ pieces
  slashes : Piece.character '/' ∉ pieces
  comments : ∀ body, Piece.openComment body ∉ pieces
  words : ¬ SplitsWord pieces

theorem FormTokens.tail {piece : Piece} {pieces : List Piece}
    (forms : FormTokens (piece :: pieces)) : FormTokens pieces where
  literals body member := forms.literals body (List.mem_cons_of_mem _ member)
  slashes member := forms.slashes (List.mem_cons_of_mem _ member)
  comments body member := forms.comments body (List.mem_cons_of_mem _ member)
  words splits := forms.words (splitsWord_cons.mpr (.inr splits))

/-- A character is blank, or a mark, or it starts or extends a word. -/
theorem FormTokens.exists_character {value : Char} {pieces : List Piece}
    {rest : List Char} {tokens : List Token} (noQuote : value ≠ '"')
    (forms : FormTokens (.character value :: pieces))
    (consists : Consists pieces rest) (others : Tokenized tokens rest) :
    ∃ more, Tokenized more (value :: rest) := by
  obtain space | ⟨kind, rfl⟩ | word | quote | slash := character_cases value
  · exact ⟨tokens, others.space space⟩
  · exact ⟨.mark kind :: tokens, others.token nofun nofun⟩
  · by_cases ends : Ends rest
    · have whole : ¬ ResumesWord pieces := fun resumes =>
        forms.words (splitsWord_cons.mpr (.inl ⟨value, rfl, word, resumes⟩))
      have alone : ∀ character ∈ [value], isWordCharacter character = true := by
        simpa using word
      have stripped := ends_stripComments consists ends whole
      exact ⟨.word [value] (List.cons_ne_nil _ _) alone :: tokens,
        others.token (fun _ => ends) (fun _ => stripped)⟩
    · exact others.extend word ends
  · exact absurd quote noQuote
  · exact absurd (slash ▸ List.mem_cons_self) forms.slashes

/-- A text of pieces that form tokens is one of tokens and separators. -/
theorem Consists.exists_tokenized {pieces : List Piece} {text : List Char}
    (consists : Consists pieces text) (forms : FormTokens pieces) :
    ∃ tokens, Tokenized tokens text := by
  induction consists with
  | nil => exact ⟨[], @Tokenized.intro [] [] [] .done .nothing .done⟩
  | @cons piece rest pieces fits others ih =>
      obtain ⟨tokens, tokenized⟩ := ih forms.tail
      cases fits with
      | character noQuote _ => exact forms.exists_character noQuote others tokenized
      | literal closed =>
          exact ⟨.literal _ closed :: tokens, tokenized.token nofun nofun⟩
      | openLiteral => exact absurd List.mem_cons_self (forms.literals _)
      | lineComment line feed => exact ⟨tokens, tokenized.lineComment line feed⟩
      | blockComment closed => exact ⟨tokens, tokenized.blockComment closed⟩
      | openComment => exact absurd List.mem_cons_self (forms.comments _)

end ExportAudit.Json.Relaxed
