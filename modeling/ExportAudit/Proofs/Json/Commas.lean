import Mathlib.Data.List.Infix
import ExportAudit.Proofs.Json.Lexing

/-!
# Trailing commas among pieces and tokens

Dropping trailing commas drops pieces that are commas and keeps all others.  The
tokens of a text are those of what is left, decorated with the commas, provided
that no comma is all that an array or an object holds.
-/

namespace ExportAudit.Json.Relaxed

/-- A comma, and otherwise only blanks and comments, stands between what opens an
array or an object and what closes one. -/
def HoldsLoneComma (pieces : List Piece) : Prop :=
  ∃ opening closing : Char, (opening = '[' ∨ opening = '{') ∧
    (closing = ']' ∨ closing = '}') ∧
    [.character opening, .character ',', .character closing] <:+:
      pieces.filter Piece.isSolid

/-- A comma is all that stands between a token that opens an array or an object
and one that closes it. -/
def LoneComma (tokens : List Token) : Prop :=
  ∃ opening closing : Token, opening.Opens ∧ closing.Closes ∧
    [opening, .mark .comma, closing] <:+: tokens

/-! ## Pieces that are left -/

theorem closesNext_starts {text : List Char} (closes : closesNext text = true) :
    ∃ first rest, text = first :: rest ∧
      (isSpace first = true ∨ first = ']' ∨ first = '}') := by
  cases text with
  | nil => cases closes
  | cons first rest =>
      refine ⟨first, rest, rfl, ?_⟩
      by_cases space : isSpace first = true
      · exact .inl space
      · right
        have same : skipSpace (first :: rest) = first :: rest :=
          List.dropWhile_cons_of_neg space
        rw [closesNext, same] at closes
        split at closes
        · next starts => exact .inl (List.cons.inj starts).1
        · next starts => exact .inr (List.cons.inj starts).1
        · cases closes

/-- What comes first once trailing commas are dropped did so before, or it is
blank, or it closes an array or an object. -/
theorem head?_stripTrailingCommas {text : List Char} {character : Char}
    (first : character ∈ (stripTrailingCommas text).head?) :
    character ∈ text.head? ∨ isSpace character = true ∨ character = ']' ∨
      character = '}' := by
  have plain : ∀ {value : Char} {rest : List Char}, value ≠ ',' →
      character ∈ (stripTrailingCommas (value :: rest)).head? →
      character = value := by
    intro value rest noComma first
    by_cases quote : value = '"'
    · subst quote
      cases first
      rfl
    · rw [stripTrailingCommas, withoutTrailingCommas_cons noComma quote] at first
      cases first
      rfl
  cases text with
  | nil => cases first
  | cons value rest =>
      by_cases comma : value = ','
      · subst comma
        cases closes : closesNext rest with
        | false =>
            rw [stripTrailingCommas, withoutTrailingCommas,
              if_neg (Bool.eq_false_iff.mp closes)] at first
            cases first
            exact .inl rfl
        | true =>
            rw [stripTrailingCommas, withoutTrailingCommas, if_pos closes] at first
            obtain ⟨second, others, rfl, known⟩ := closesNext_starts closes
            have noComma : second ≠ ',' := by
              rintro rfl
              revert known
              decide
            rw [plain noComma first]
            exact .inr known
      · exact .inl (congrArg some (plain comma first).symm)

theorem ends_stripTrailingCommas {text : List Char} (ends : Ends text) :
    Ends (stripTrailingCommas text) := by
  intro character first
  obtain before | space | rfl | rfl := head?_stripTrailingCommas first
  · exact ends character before
  · exact isWordCharacter_of_space space
  · exact isWordCharacter_mark .closeArray
  · exact isWordCharacter_mark .closeObject

theorem withoutTrailingCommas_openBody {body : List Char}
    (unclosed : IsOpenBody body) : withoutTrailingCommas true body = body := by
  induction unclosed with
  | nil => rfl
  | backslash => rfl
  | @pair character body _ ih => exact congrArg ('\\' :: character :: ·) ih
  | plain noEscape noQuote _ ih => simp [withoutTrailingCommas, noEscape, ih]

/-- Dropping trailing commas leaves a piece that is none. -/
theorem stripTrailingCommas_piece {piece : Piece} {rest : List Char}
    (fits : piece.Fits rest) (noComment : piece.isComment = false)
    (stays : piece = .character ',' → closesNext rest = false) :
    stripTrailingCommas (piece.text ++ rest) =
      piece.text ++ stripTrailingCommas rest := by
  cases fits with
  | @character value _ noQuote _ =>
      by_cases comma : value = ','
      · subst comma
        exact if_neg (Bool.eq_false_iff.mp (stays rfl))
      · exact withoutTrailingCommas_cons comma noQuote
  | literal closed =>
      simp only [Piece.text, List.cons_append, List.append_assoc, List.nil_append]
      exact congrArg ('"' :: ·) (withoutTrailingCommas_body closed)
  | @openLiteral body unclosed =>
      have kept := withoutTrailingCommas_openBody unclosed
      simp [stripTrailingCommas, Piece.text, withoutTrailingCommas, kept]
  | lineComment | blockComment | openComment => cases noComment

/-- A piece that is no comment also fits before a text without trailing commas. -/
theorem Piece.Fits.before_stripTrailingCommas {piece : Piece} {rest : List Char}
    (fits : piece.Fits rest) (noComment : piece.isComment = false) :
    piece.Fits (stripTrailingCommas rest) := by
  cases fits with
  | character noQuote noOpening =>
      refine .character noQuote fun opens => noOpening ?_
      obtain ⟨slash, next⟩ := opensComment_cons.mp opens
      refine opensComment_cons.mpr ⟨slash, next.imp (fun second => ?_)
        (fun second => ?_)⟩
      · exact (head?_stripTrailingCommas second).resolve_right (by decide)
      · exact (head?_stripTrailingCommas second).resolve_right (by decide)
  | literal closed => exact .literal closed
  | openLiteral unclosed => exact .openLiteral unclosed
  | lineComment | blockComment | openComment => cases noComment

/-- Among the pieces that are left are all those that are no commas. -/
theorem Consists.exists_stripTrailingCommas {pieces : List Piece}
    {text : List Char} (consists : Consists pieces text)
    (noComment : ∀ piece ∈ pieces, piece.isComment = false) :
    ∃ fewer, Consists fewer (stripTrailingCommas text) ∧
      ∀ piece ∈ pieces, piece ≠ .character ',' → piece ∈ fewer := by
  induction consists with
  | nil => exact ⟨[], .nil, by simp⟩
  | @cons piece rest pieces fits _ ih =>
      rw [List.forall_mem_cons] at noComment
      obtain ⟨fewer, left, kept⟩ := ih noComment.2
      by_cases stays : piece = .character ',' → closesNext rest = false
      · rw [stripTrailingCommas_piece fits noComment.1 stays]
        refine ⟨piece :: fewer,
          .cons (fits.before_stripTrailingCommas noComment.1) left, ?_⟩
        refine List.forall_mem_cons.mpr ⟨fun _ => List.mem_cons_self, ?_⟩
        exact fun other member noComma =>
          List.mem_cons_of_mem _ (kept other member noComma)
      · rw [Classical.not_imp, Bool.not_eq_false] at stays
        obtain ⟨rfl, closes⟩ := stays
        have dropped : stripTrailingCommas (',' :: rest) =
            stripTrailingCommas rest := if_pos closes
        refine ⟨fewer, dropped.symm ▸ left, ?_⟩
        exact List.forall_mem_cons.mpr ⟨fun noComma => absurd rfl noComma, kept⟩

/-! ## Tokens that are left -/

theorem not_loneComma_nil : ¬ LoneComma [] := by
  intro alone
  obtain ⟨_, _, _, _, inside⟩ := alone
  simp at inside

theorem loneComma_cons {token : Token} {tokens : List Token} :
    LoneComma (token :: tokens) ↔
      (token.Opens ∧ ∃ closing rest, tokens = .mark .comma :: closing :: rest ∧
        closing.Closes) ∨ LoneComma tokens := by
  constructor
  · rintro ⟨opening, closing, opens, closes, inside⟩
    obtain starts | later := List.infix_cons_iff.mp inside
    · obtain ⟨rest, same⟩ := starts
      cases same
      exact .inl ⟨opens, closing, rest, rfl, closes⟩
    · exact .inr ⟨opening, closing, opens, closes, later⟩
  · rintro (⟨opens, closing, rest, rfl, closes⟩ | later)
    · exact ⟨token, closing, opens, closes,
        (List.prefix_append [token, .mark .comma, closing] rest).isInfix⟩
    · obtain ⟨opening, closing, opens, closes, inside⟩ := later
      exact ⟨opening, closing, opens, closes,
        inside.trans (List.suffix_cons _ _).isInfix⟩

/-- The tokens of a text are those of what is left, decorated with commas. -/
theorem exists_trailing {decorated : List Token} {text : List Char}
    (spells : Spells Blank decorated text) (previous : Token)
    (filled : ¬ LoneComma (previous :: decorated)) :
    ∃ tokens, Trailing (some previous) tokens decorated ∧
      Spells Blank tokens (stripTrailingCommas text) := by
  induction spells generalizing previous with
  | done => exact ⟨[], .done, .done⟩
  | @separator _ rest _ known _ ih =>
      cases known with
      | @single character space =>
          obtain ⟨tokens, trailing, left⟩ := ih previous filled
          have kept : stripTrailingCommas ([character] ++ rest) =
              character :: stripTrailingCommas rest :=
            withoutTrailingCommas_cons (ne_of_isSpace space (by decide))
              (ne_of_isSpace space (by decide))
          rw [kept]
          exact ⟨tokens, trailing, .separator (.single space) left⟩
  | @token token rest decorated ends others ih =>
      rw [loneComma_cons, not_or] at filled
      obtain ⟨tokens, trailing, left⟩ := ih token filled.2
      by_cases stays : token = .mark .comma → closesNext rest = false
      · rw [stripTrailingCommas, withoutTrailingCommas_text stays]
        exact ⟨token :: tokens, .keep trailing,
          .token (fun word => ends_stripTrailingCommas (ends word)) left⟩
      · rw [Classical.not_imp, Bool.not_eq_false] at stays
        obtain ⟨rfl, closesNext⟩ := stays
        obtain ⟨closing, first, closes⟩ := (closesNext_iff others).mp closesNext
        have dropped : stripTrailingCommas (',' :: rest) =
            stripTrailingCommas rest := if_pos closesNext
        -- what closes stays, for it is no comma
        cases trailing with
        | done => cases first
        | comma =>
            cases first
            simp [Token.Closes] at closes
        | @keep _ _ tokens decorated trailing =>
            cases first
            have nonempty : ¬ previous.Opens := fun opens =>
              filled.1 ⟨opens, closing, decorated, rfl, closes⟩
            exact ⟨closing :: tokens, .comma nonempty closes trailing,
              dropped.symm ▸ left⟩

theorem Trailing.first {previous : Option Token} {tokens decorated : List Token}
    (trailing : Trailing previous tokens decorated)
    (opens : ∀ token ∈ tokens.head?, ¬ token.Closes) :
    Trailing none tokens decorated := by
  cases trailing with
  | done => exact .done
  | keep others => exact .keep others
  | comma _ closes => exact absurd closes (opens _ rfl)

/-- In a decoration no comma is all that an array or an object holds. -/
theorem Trailing.not_loneComma {previous : Option Token}
    {tokens decorated : List Token} (trailing : Trailing previous tokens decorated)
    (adjacent : tokens.IsChain Adjacent) :
    ¬ LoneComma (previous.toList ++ decorated) := by
  induction trailing with
  | @done previous =>
      cases previous with
      | none => exact not_loneComma_nil
      | some previous =>
          intro alone
          refine (loneComma_cons.mp alone).elim (fun here => ?_) not_loneComma_nil
          obtain ⟨_, _, _, same, _⟩ := here
          cases same
  | @keep previous token tokens decorated others ih =>
      obtain ⟨next, chain⟩ := List.isChain_cons.mp adjacent
      have filled := ih chain
      cases previous with
      | none => exact filled
      | some previous =>
          intro alone
          refine (loneComma_cons.mp alone).elim (fun here => ?_) filled
          obtain ⟨_, closing, rest, same, closes⟩ := here
          cases same
          -- a comma that is kept does not stand before what closes
          cases others with
          | keep => exact (next closing rfl).comma rfl closes
          | comma => simp [Token.Closes] at closes
  | @comma previous token tokens decorated nonempty _ _ ih =>
      have filled := ih (List.isChain_cons.mp adjacent).2
      intro alone
      obtain here | alone := loneComma_cons.mp alone
      · exact nonempty here.1
      · obtain here | alone := loneComma_cons.mp alone
        · simp [Token.Opens] at here
        · exact filled alone

/-! ## Pieces and tokens -/

/-- Pieces that start with a mark are those of tokens that start with it. -/
theorem exists_of_prefix_flatMap {kind : Mark} {others : List Piece}
    {tokens : List Token}
    (starts : .character kind.character :: others <+: tokens.flatMap piecesOf) :
    ∃ rest, tokens = .mark kind :: rest ∧ others <+: rest.flatMap piecesOf := by
  cases tokens with
  | nil => simp at starts
  | cons token rest =>
      rw [List.flatMap_cons] at starts
      cases token with
      | mark other =>
          obtain ⟨same, later⟩ := List.cons_prefix_cons.mp starts
          cases Mark.character_inj (Piece.character.inj same)
          exact ⟨rest, rfl, later⟩
      | literal body closed => cases (List.cons_prefix_cons.mp starts).1
      | word characters nonempty plain =>
          cases characters with
          | nil => exact absurd rfl nonempty
          | cons first characters =>
              have word := plain first List.mem_cons_self
              cases (List.cons_prefix_cons.mp starts).1
              rw [isWordCharacter_mark] at word
              cases word

/-- What stands inside a list, but does not start in its first part, stands inside
the rest. -/
theorem infix_of_notMem {α : Type} {first : α} {others front rest : List α}
    (absent : first ∉ front) (inside : first :: others <:+: front ++ rest) :
    first :: others <:+: rest := by
  induction front with
  | nil => exact inside
  | cons value front ih =>
      rw [List.mem_cons, not_or] at absent
      refine (List.infix_cons_iff.mp inside).elim (fun starts => ?_) (ih absent.2)
      exact absurd (List.cons_prefix_cons.mp starts).1 absent.1

theorem notMem_piecesOf {kind : Mark} {token : Token}
    (different : token ≠ .mark kind) :
    Piece.character kind.character ∉ piecesOf token := by
  intro member
  cases token with
  | mark other =>
      have same := List.mem_singleton.mp member
      exact different (congrArg _ (Mark.character_inj (Piece.character.inj same)).symm)
  | literal body closed => cases List.mem_singleton.mp member
  | word characters nonempty plain =>
      obtain ⟨character, inside, same⟩ := List.mem_map.mp member
      have word := plain character inside
      rw [Piece.character.inj same, isWordCharacter_mark] at word
      cases word

/-- Marks that follow one another as pieces do so as tokens. -/
theorem infix_of_flatMap {first second third : Mark} {tokens : List Token}
    (inside : [.character first.character, .character second.character,
      .character third.character] <:+: tokens.flatMap piecesOf) :
    [.mark first, .mark second, .mark third] <:+: tokens := by
  induction tokens with
  | nil => simp at inside
  | cons token tokens ih =>
      rw [List.flatMap_cons] at inside
      by_cases same : token = .mark first
      · subst same
        obtain starts | later := List.infix_cons_iff.mp inside
        · obtain ⟨afterFirst, rfl, more⟩ :=
            exists_of_prefix_flatMap (List.cons_prefix_cons.mp starts).2
          obtain ⟨afterSecond, rfl, _⟩ := exists_of_prefix_flatMap more
          exact (List.prefix_append [_, _, _] afterSecond).isInfix
        · exact (ih later).trans (List.suffix_cons _ _).isInfix
      · have later := infix_of_notMem (notMem_piecesOf same) inside
        exact (ih later).trans (List.suffix_cons _ _).isInfix

/-- A comma is all that an array or an object holds among pieces exactly if it is
among tokens. -/
theorem Lexed.holdsLoneComma_iff {tokens : List Token} {pieces : List Piece}
    (lexed : Lexed tokens pieces) : HoldsLoneComma pieces ↔ LoneComma tokens := by
  rw [HoldsLoneComma, lexed.solid]
  constructor
  · rintro ⟨opening, closing, opens, closes, inside⟩
    have opened : ∃ kind : Mark, kind.character = opening ∧ (Token.mark kind).Opens :=
      opens.elim (fun same => ⟨.openArray, same.symm, .inl rfl⟩)
        (fun same => ⟨.openObject, same.symm, .inr rfl⟩)
    have closed : ∃ kind : Mark, kind.character = closing ∧ (Token.mark kind).Closes :=
      closes.elim (fun same => ⟨.closeArray, same.symm, .inl rfl⟩)
        (fun same => ⟨.closeObject, same.symm, .inr rfl⟩)
    obtain ⟨first, rfl, firstOpens⟩ := opened
    obtain ⟨last, rfl, lastCloses⟩ := closed
    exact ⟨_, _, firstOpens, lastCloses, @infix_of_flatMap first .comma last _ inside⟩
  · rintro ⟨opening, closing, opens, closes, inside⟩
    have spread := inside.flatMap piecesOf
    obtain rfl | rfl := opens <;> obtain rfl | rfl := closes
    · exact ⟨'[', ']', .inl rfl, .inl rfl, spread⟩
    · exact ⟨'[', '}', .inl rfl, .inr rfl, spread⟩
    · exact ⟨'{', ']', .inr rfl, .inl rfl, spread⟩
    · exact ⟨'{', '}', .inr rfl, .inr rfl, spread⟩

end ExportAudit.Json.Relaxed
