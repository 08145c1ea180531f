import ExportAudit.Proofs.Json.Stripping

/-!
# Texts with comments

Every text consists of pieces in exactly one way: comments, string literals, and
single characters that belong to neither.  Removing the comments leaves the
other pieces, and they stay the pieces of what is left: no slash that belongs to
no comment stands before a comment, so that nothing moves up to it.
-/

namespace ExportAudit.Json.Relaxed

/-- A piece of a text with comments.  A literal or a block comment that is not
closed extends to the end of the text. -/
inductive Piece where
  | character (value : Char)
  | literal (body : List Char)
  | openLiteral (body : List Char)
  | lineComment (body : List Char)
  | blockComment (body : List Char)
  | openComment (body : List Char)

namespace Piece

/-- The characters of a piece. -/
def text : Piece → List Char
  | .character value => [value]
  | .literal body => '"' :: (body ++ ['"'])
  | .openLiteral body => '"' :: body
  | .lineComment body => '/' :: '/' :: body
  | .blockComment body => '/' :: '*' :: (body ++ ['*', '/'])
  | .openComment body => '/' :: '*' :: body

/-- Whether a piece is a comment. -/
def isComment : Piece → Bool
  | .lineComment _ | .blockComment _ | .openComment _ => true
  | .character _ | .literal _ | .openLiteral _ => false

/-- Whether a piece is a string literal. -/
def isLiteral : Piece → Bool
  | .literal _ | .openLiteral _ => true
  | .character _ | .lineComment _ | .blockComment _ | .openComment _ => false

end Piece

/-- The characters after the quote of a string literal that is not closed: no
quote stands alone, but a backslash may be the last character. -/
inductive IsOpenBody : List Char → Prop where
  | nil : IsOpenBody []
  | backslash : IsOpenBody ['\\']
  | pair {character : Char} {rest : List Char} (others : IsOpenBody rest) :
      IsOpenBody ('\\' :: character :: rest)
  | plain {character : Char} {rest : List Char}
      (noEscape : character ≠ '\\') (noQuote : character ≠ '"')
      (others : IsOpenBody rest) : IsOpenBody (character :: rest)

/-- A comment starts at a text. -/
def OpensComment (text : List Char) : Prop :=
  ['/', '/'] <+: text ∨ ['/', '*'] <+: text

/-- A piece is the first one of a text, given what stands after it. -/
inductive Piece.Fits : Piece → (rest : List Char) → Prop where
  | character {value : Char} {rest : List Char} (noQuote : value ≠ '"')
      (noComment : ¬ OpensComment (value :: rest)) : Fits (.character value) rest
  | literal {body rest : List Char} (closed : IsBody body) :
      Fits (.literal body) rest
  | openLiteral {body : List Char} (unclosed : IsOpenBody body) :
      Fits (.openLiteral body) []
  | lineComment {body rest : List Char} (line : '\n' ∉ body)
      (ends : ∀ character ∈ rest.head?, character = '\n') :
      Fits (.lineComment body) rest
  | blockComment {body rest : List Char} (first : ¬ ['*', '/'] <:+: body) :
      Fits (.blockComment body) rest
  | openComment {body : List Char} (unclosed : ¬ ['*', '/'] <:+: body) :
      Fits (.openComment body) []

/-- A text consists of some pieces in order. -/
inductive Consists : List Piece → List Char → Prop where
  | nil : Consists [] []
  | cons {piece : Piece} {rest : List Char} {pieces : List Piece}
      (fits : piece.Fits rest) (others : Consists pieces rest) :
      Consists (piece :: pieces) (piece.text ++ rest)

/-! ## Every text consists of pieces -/

/-- What stands after a quote is the body of a literal up to a quote that closes
it, or the literal is not closed. -/
theorem isBody_or_isOpenBody (text : List Char) :
    (∃ body rest, text = body ++ '"' :: rest ∧ IsBody body) ∨ IsOpenBody text := by
  have quoted : ∀ first rest, first = '"' →
      ∃ body after, first :: rest = body ++ '"' :: after ∧ IsBody body :=
    fun first rest quote => ⟨[], rest, by rw [quote]; rfl, .nil⟩
  induction text using List.twoStepInduction with
  | nil => exact .inr .nil
  | singleton first =>
      by_cases quote : first = '"'
      · exact .inl (quoted first [] quote)
      · by_cases escape : first = '\\'
        · exact .inr (escape ▸ .backslash)
        · exact .inr (.plain escape quote .nil)
  | cons_cons first second rest ih ihSecond =>
      by_cases quote : first = '"'
      · exact .inl (quoted first _ quote)
      · by_cases escape : first = '\\'
        · rw [escape]
          cases ih with
          | inl found =>
              obtain ⟨body, after, rfl, closed⟩ := found
              exact .inl ⟨'\\' :: second :: body, after, rfl, .pair closed⟩
          | inr unclosed => exact .inr (.pair unclosed)
        · cases ihSecond second with
          | inl found =>
              obtain ⟨body, after, same, closed⟩ := found
              exact .inl ⟨first :: body, after, by rw [same]; rfl,
                .plain escape quote closed⟩
          | inr unclosed => exact .inr (.plain escape quote unclosed)

/-- A text in which a block comment ends goes on with the first such end. -/
theorem exists_first_end {text : List Char} (ends : ['*', '/'] <:+: text) :
    ∃ body rest, text = body ++ '*' :: '/' :: rest ∧ ¬ ['*', '/'] <:+: body := by
  induction text with
  | nil => simp at ends
  | cons first text ih =>
      rw [List.infix_cons_iff] at ends
      by_cases here : ['*', '/'] <+: first :: text
      · obtain ⟨rest, same⟩ := here
        exact ⟨[], rest, same.symm, by simp⟩
      · obtain ⟨body, rest, rfl, none⟩ := ih (ends.resolve_left here)
        refine ⟨first :: body, rest, rfl, fun inside => ?_⟩
        refine (List.infix_cons_iff.mp inside).elim (fun start => ?_) none
        exact here (start.trans (List.prefix_append (first :: body) _))

/-- Every text but the empty one starts with a piece. -/
theorem exists_first {text : List Char} (nonempty : text ≠ []) :
    ∃ (piece : Piece) (rest : List Char), text = piece.text ++ rest ∧
      piece.Fits rest := by
  by_cases comment : OpensComment text
  · obtain ⟨after, rfl⟩ | ⟨after, rfl⟩ := comment
    · -- a line comment ends before the next line feed
      refine ⟨.lineComment (after.takeWhile (· ≠ '\n')),
        after.dropWhile (· ≠ '\n'), ?_, .lineComment ?_ ?_⟩
      · simp [Piece.text]
      · intro feed
        simpa using List.mem_takeWhile_imp feed
      · intro character first
        have stops := List.head?_dropWhile_not (· ≠ '\n') after
        rw [Option.mem_def.mp first] at stops
        simpa using stops
    · by_cases ends : ['*', '/'] <:+: after
      · obtain ⟨body, rest, rfl, first⟩ := exists_first_end ends
        exact ⟨.blockComment body, rest, by simp [Piece.text], .blockComment first⟩
      · exact ⟨.openComment after, [], by simp [Piece.text], .openComment ends⟩
  · cases text with
    | nil => exact absurd rfl nonempty
    | cons value after =>
        by_cases quote : value = '"'
        · subst quote
          cases isBody_or_isOpenBody after with
          | inl found =>
              obtain ⟨body, rest, rfl, closed⟩ := found
              exact ⟨.literal body, rest, by simp [Piece.text], .literal closed⟩
          | inr unclosed =>
              exact ⟨.openLiteral after, [], by simp [Piece.text],
                .openLiteral unclosed⟩
        · exact ⟨.character value, after, rfl, .character quote comment⟩

theorem Piece.text_ne_nil (piece : Piece) : piece.text ≠ [] := by
  cases piece <;> exact List.cons_ne_nil _ _

theorem exists_consists (text : List Char) : ∃ pieces, Consists pieces text := by
  induction long : text.length using Nat.strongRecOn generalizing text with
  | ind length ih =>
      by_cases empty : text = []
      · exact ⟨[], empty ▸ .nil⟩
      · obtain ⟨piece, rest, rfl, fits⟩ := exists_first empty
        have shorter : rest.length < length := by
          have := List.length_pos_iff.mpr piece.text_ne_nil
          rw [List.length_append] at long
          omega
        obtain ⟨pieces, others⟩ := ih _ shorter rest rfl
        exact ⟨piece :: pieces, .cons fits others⟩

/-! ## In one way only -/

theorem IsOpenBody.ne_closed {text body rest : List Char}
    (unclosed : IsOpenBody text) (closed : IsBody body) :
    text ≠ body ++ '"' :: rest := by
  induction unclosed generalizing body with
  | nil => simp
  | backslash =>
      cases closed with
      | nil => simp
      | pair => simp
      | plain noEscape =>
          intro same
          exact noEscape (List.cons.inj same).1.symm
  | pair _ ih =>
      cases closed with
      | nil => simp
      | pair others =>
          intro same
          simp only [List.cons_append, List.cons.injEq, true_and] at same
          exact ih others same.2
      | plain noEscape =>
          intro same
          exact noEscape (List.cons.inj same).1.symm
  | plain noEscape noQuote _ ih =>
      cases closed with
      | nil =>
          intro same
          exact noQuote (List.cons.inj same).1
      | pair =>
          intro same
          exact noEscape (List.cons.inj same).1
      | plain _ _ others =>
          intro same
          exact ih others (List.cons.inj same).2

theorem not_first_end {body rest : List Char} (first : ¬ ['*', '/'] <:+: body)
    (nonempty : body ≠ []) (others : List Char) :
    body ++ '*' :: '/' :: rest ≠ '*' :: '/' :: others := by
  intro same
  match body with
  | [] => exact nonempty rfl
  | [_] => cases (List.cons.inj (List.cons.inj same).2).1
  | _ :: _ :: body =>
      cases (List.cons.inj same).1
      cases (List.cons.inj (List.cons.inj same).2).1
      exact first (List.prefix_append ['*', '/'] body).isInfix

/-- The first end of a block comment is determined. -/
theorem first_end_unique {left right leftRest rightRest : List Char}
    (leftFirst : ¬ ['*', '/'] <:+: left) (rightFirst : ¬ ['*', '/'] <:+: right)
    (same : left ++ '*' :: '/' :: leftRest = right ++ '*' :: '/' :: rightRest) :
    left = right ∧ leftRest = rightRest := by
  induction left generalizing right with
  | nil =>
      by_cases empty : right = []
      · subst empty
        simpa using same
      · exact absurd same.symm (not_first_end rightFirst empty leftRest)
  | cons first left ih =>
      cases right with
      | nil => exact absurd same (not_first_end leftFirst (List.cons_ne_nil _ _) _)
      | cons second right =>
          obtain ⟨rfl, later⟩ := List.cons.inj same
          have none : ∀ {body : List Char}, ¬ ['*', '/'] <:+: first :: body →
              ¬ ['*', '/'] <:+: body := fun whole inside =>
            whole (inside.trans (List.suffix_cons first _).isInfix)
          obtain ⟨rfl, rfl⟩ := ih (none leftFirst) (none rightFirst) later
          exact ⟨rfl, rfl⟩

/-- A line comment ends before a line feed or at the end of the text. -/
theorem line_unique {left right leftRest rightRest : List Char}
    (leftLine : '\n' ∉ left) (rightLine : '\n' ∉ right)
    (leftEnds : ∀ character ∈ leftRest.head?, character = '\n')
    (rightEnds : ∀ character ∈ rightRest.head?, character = '\n')
    (same : left ++ leftRest = right ++ rightRest) :
    left = right ∧ leftRest = rightRest := by
  have split : ∀ {line rest : List Char}, '\n' ∉ line →
      (∀ character ∈ rest.head?, character = '\n') →
      (line ++ rest).takeWhile (· ≠ '\n') = line := by
    intro line rest inside ends
    rw [List.takeWhile_append_of_pos]
    swap
    · intro character member
      refine decide_eq_true fun feed => ?_
      exact inside (feed ▸ member)
    cases rest with
    | nil => simp
    | cons first others => simp [ends first rfl]
  have lines := split leftLine leftEnds
  rw [same, split rightLine rightEnds] at lines
  subst lines
  exact ⟨rfl, List.append_cancel_left same⟩

theorem Piece.Fits.isComment_iff {piece : Piece} {rest : List Char}
    (fits : piece.Fits rest) :
    piece.isComment = true ↔ OpensComment (piece.text ++ rest) := by
  cases fits with
  | character _ noComment => exact iff_of_false Bool.false_ne_true noComment
  | literal | openLiteral =>
      refine iff_of_false Bool.false_ne_true fun opens => ?_
      simp [OpensComment, Piece.text] at opens
  | lineComment | blockComment | openComment =>
      refine iff_of_true rfl ?_
      simp [OpensComment, Piece.text]

theorem Piece.Fits.isLiteral_iff {piece : Piece} {rest : List Char}
    (fits : piece.Fits rest) :
    piece.isLiteral = true ↔ (piece.text ++ rest).head? = some '"' := by
  cases fits with
  | character noQuote => simp [Piece.isLiteral, Piece.text, noQuote]
  | literal | openLiteral | lineComment | blockComment | openComment =>
      simp [Piece.isLiteral, Piece.text]

/-- The first piece of a text is determined. -/
theorem Piece.Fits.unique {left right : Piece} {leftRest rightRest : List Char}
    (leftFits : left.Fits leftRest) (rightFits : right.Fits rightRest)
    (same : left.text ++ leftRest = right.text ++ rightRest) :
    left = right ∧ leftRest = rightRest := by
  have comments : left.isComment = right.isComment := by
    rw [Bool.eq_iff_iff, leftFits.isComment_iff, rightFits.isComment_iff, same]
  have literals : left.isLiteral = right.isLiteral := by
    rw [Bool.eq_iff_iff, leftFits.isLiteral_iff, rightFits.isLiteral_iff, same]
  cases leftFits with
  | character =>
      cases rightFits with
      | character =>
          obtain ⟨rfl, rest⟩ := List.cons.inj same
          exact ⟨rfl, rest⟩
      | literal | openLiteral => cases literals
      | lineComment | blockComment | openComment => cases comments
  | literal leftClosed =>
      cases rightFits with
      | literal rightClosed =>
          simp only [text, List.cons_append, List.append_assoc, List.nil_append,
            List.cons.injEq, true_and] at same
          obtain ⟨rfl, rfl⟩ := leftClosed.unique rightClosed same
          exact ⟨rfl, rfl⟩
      | openLiteral rightOpen =>
          simp only [text, List.cons_append, List.append_assoc, List.nil_append,
            List.append_nil, List.cons.injEq, true_and] at same
          exact absurd same.symm (rightOpen.ne_closed leftClosed)
      | character => cases literals
      | lineComment | blockComment | openComment => cases comments
  | openLiteral leftOpen =>
      cases rightFits with
      | literal rightClosed =>
          simp only [text, List.cons_append, List.append_assoc, List.nil_append,
            List.append_nil, List.cons.injEq, true_and] at same
          exact absurd same (leftOpen.ne_closed rightClosed)
      | openLiteral =>
          simp only [text, List.append_nil, List.cons.injEq, true_and] at same
          exact ⟨congrArg _ same, rfl⟩
      | character => cases literals
      | lineComment | blockComment | openComment => cases comments
  | lineComment leftLine leftEnds =>
      cases rightFits with
      | lineComment rightLine rightEnds =>
          simp only [text, List.cons_append, List.cons.injEq, true_and] at same
          obtain ⟨rfl, rfl⟩ :=
            line_unique leftLine rightLine leftEnds rightEnds same
          exact ⟨rfl, rfl⟩
      | blockComment | openComment => simp [text] at same
      | character | literal | openLiteral => cases comments
  | blockComment leftFirst =>
      cases rightFits with
      | lineComment => simp [text] at same
      | blockComment rightFirst =>
          simp only [text, List.cons_append, List.append_assoc, List.nil_append,
            List.cons.injEq, true_and] at same
          obtain ⟨rfl, rfl⟩ := first_end_unique leftFirst rightFirst same
          exact ⟨rfl, rfl⟩
      | openComment rightOpen =>
          simp only [text, List.cons_append, List.append_assoc, List.nil_append,
            List.append_nil, List.cons.injEq, true_and] at same
          exact absurd ⟨_, _, (List.append_assoc _ _ _).trans same⟩ rightOpen
      | character | literal | openLiteral => cases comments
  | openComment leftOpen =>
      cases rightFits with
      | lineComment => simp [text] at same
      | blockComment rightFirst =>
          simp only [text, List.cons_append, List.append_assoc, List.nil_append,
            List.append_nil, List.cons.injEq, true_and] at same
          exact absurd ⟨_, _, (List.append_assoc _ _ _).trans same.symm⟩ leftOpen
      | openComment =>
          simp only [text, List.append_nil, List.cons.injEq, true_and] at same
          exact ⟨congrArg _ same, rfl⟩
      | character | literal | openLiteral => cases comments

theorem Consists.unique {left right : List Piece} {text : List Char}
    (leftConsists : Consists left text) (rightConsists : Consists right text) :
    left = right := by
  induction leftConsists generalizing right with
  | nil =>
      generalize empty : ([] : List Char) = text at rightConsists
      cases rightConsists with
      | nil => rfl
      | @cons piece rest _ _ _ =>
          exact absurd (List.append_eq_nil_iff.mp empty.symm).1 piece.text_ne_nil
  | @cons leftPiece leftRest _ leftFits _ ih =>
      generalize whole : leftPiece.text ++ leftRest = text at rightConsists
      cases rightConsists with
      | nil =>
          exact absurd (List.append_eq_nil_iff.mp whole).1 leftPiece.text_ne_nil
      | cons rightFits others =>
          obtain ⟨rfl, rfl⟩ := leftFits.unique rightFits whole
          rw [ih others]

/-! ## Removing comments -/

theorem withoutComments_openBody {body : List Char}
    (unclosed : IsOpenBody body) : withoutComments .literal body = body := by
  induction unclosed with
  | nil => rfl
  | backslash => rfl
  | @pair character body _ ih => exact congrArg ('\\' :: character :: ·) ih
  | plain noEscape noQuote _ ih => simp [withoutComments, noEscape, ih]

theorem withoutComments_openComment {body : List Char}
    (unclosed : ¬ ['*', '/'] <:+: body) :
    withoutComments .blockComment body = [] := by
  induction body with
  | nil => rfl
  | cons first body ih =>
      rw [List.infix_cons_iff, not_or] at unclosed
      rw [withoutComments, ih unclosed.2]
      intro after star slash
      subst star slash
      exact unclosed.1 (List.prefix_append ['*', '/'] after)

theorem withoutComments_character {value : Char} {rest : List Char}
    (noQuote : value ≠ '"') (noComment : ¬ OpensComment (value :: rest)) :
    withoutComments .plain (value :: rest) =
      value :: withoutComments .plain rest := by
  have alone : ∀ after, value = '/' → rest ≠ '/' :: after ∧ rest ≠ '*' :: after := by
    rintro after rfl
    constructor
    · rintro rfl
      exact noComment (.inl (List.prefix_append ['/', '/'] after))
    · rintro rfl
      exact noComment (.inr (List.prefix_append ['/', '*'] after))
  rw [withoutComments]
  · exact fun after slash => (alone after slash).1
  · exact fun after slash => (alone after slash).2
  · exact noQuote

/-- Removing comments leaves a piece that is no comment, and all of it. -/
theorem stripComments_piece {piece : Piece} {rest : List Char}
    (fits : piece.Fits rest) :
    stripComments (piece.text ++ rest) =
      (if piece.isComment then [] else piece.text) ++ stripComments rest := by
  cases fits with
  | character noQuote noComment =>
      exact withoutComments_character noQuote noComment
  | @literal body rest closed =>
      have kept := @withoutComments_body body rest closed
      simp [stripComments, Piece.text, Piece.isComment, withoutComments, kept]
  | openLiteral unclosed =>
      have kept := withoutComments_openBody unclosed
      simp [stripComments, Piece.text, Piece.isComment, withoutComments, kept]
  | lineComment line ends =>
      have gone := withoutComments_line line ends
      simp [stripComments, Piece.text, Piece.isComment, withoutComments, gone]
  | @blockComment body rest first =>
      have gone := @withoutComments_blockComment body rest first
      simp [stripComments, Piece.text, Piece.isComment, withoutComments, gone]
  | openComment unclosed =>
      have gone := withoutComments_openComment unclosed
      simp [stripComments, Piece.text, Piece.isComment, withoutComments, gone]

/-- A text that no slash starts goes on as it did. -/
theorem head?_stripComments {text : List Char}
    (noSlash : text.head? ≠ some '/') :
    (stripComments text).head? = text.head? := by
  obtain ⟨pieces, consists⟩ := exists_consists text
  cases consists with
  | nil => rfl
  | cons fits _ =>
      rw [stripComments_piece fits]
      cases fits with
      | character | literal | openLiteral => rfl
      | lineComment | blockComment | openComment => exact absurd rfl noSlash

/-- A comment starts at a text with a slash and what tells its form. -/
theorem opensComment_cons {value : Char} {rest : List Char} :
    OpensComment (value :: rest) ↔
      value = '/' ∧ (rest.head? = some '/' ∨ rest.head? = some '*') := by
  cases rest with
  | nil => simp [OpensComment]
  | cons second rest =>
      simp only [OpensComment, List.cons_prefix_cons, List.nil_prefix, and_true,
        List.head?_cons, Option.some.injEq]
      grind

/-- A piece that is no comment also fits before a text without comments. -/
theorem Piece.Fits.stripped {piece : Piece} {rest : List Char}
    (fits : piece.Fits rest) (kept : piece.isComment = false) :
    piece.Fits (stripComments rest) := by
  cases fits with
  | character noQuote noComment =>
      refine .character noQuote fun opens => noComment ?_
      obtain ⟨slash, next⟩ := opensComment_cons.mp opens
      refine opensComment_cons.mpr ⟨slash, ?_⟩
      by_cases second : rest.head? = some '/'
      · exact .inl second
      · rwa [head?_stripComments second] at next
  | literal closed => exact .literal closed
  | openLiteral unclosed => exact .openLiteral unclosed
  | lineComment | blockComment | openComment => cases kept

/-- The pieces that are no comments. -/
def uncommented (pieces : List Piece) : List Piece :=
  pieces.filter fun piece => !piece.isComment

/-- The string literals among pieces. -/
def literals (pieces : List Piece) : List Piece :=
  pieces.filter Piece.isLiteral

theorem literals_uncommented (pieces : List Piece) :
    literals (uncommented pieces) = literals pieces := by
  rw [literals, uncommented, List.filter_filter]
  refine List.filter_congr fun piece _ => ?_
  cases piece <;> rfl

/-- What is left of a text consists of its pieces that are no comments. -/
theorem Consists.stripComments {pieces : List Piece} {text : List Char}
    (consists : Consists pieces text) :
    Consists (uncommented pieces) (Relaxed.stripComments text) := by
  induction consists with
  | nil => exact .nil
  | @cons piece rest pieces fits _ ih =>
      rw [stripComments_piece fits, uncommented, List.filter_cons]
      cases comment : piece.isComment with
      | true => exact ih
      | false => exact .cons (fits.stripped comment) ih

theorem Consists.stripComments_eq {pieces : List Piece} {text : List Char}
    (consists : Consists pieces text)
    (kept : ∀ piece ∈ pieces, piece.isComment = false) :
    Relaxed.stripComments text = text := by
  induction consists with
  | nil => rfl
  | cons fits _ ih =>
      rw [List.forall_mem_cons] at kept
      rw [stripComments_piece fits, kept.1, ih kept.2]
      rfl

theorem isComment_of_mem_uncommented {piece : Piece} {pieces : List Piece}
    (member : piece ∈ uncommented pieces) : piece.isComment = false := by
  simpa using (List.mem_filter.mp member).2

/-- Removing comments leaves none: a second removal changes nothing.  A text and
what is left of it each consist of pieces in exactly one way; the pieces that are
left are those that were no comments, so that there is no comment among them, and
the string literals are the same. -/
theorem stripComments_leaves_no_comment (text : List Char) :
    stripComments (stripComments text) = stripComments text ∧
    (∃! pieces, Consists pieces text) ∧
    (∃! remaining, Consists remaining (stripComments text)) ∧
    ∀ pieces remaining, Consists pieces text →
      Consists remaining (stripComments text) →
      remaining = uncommented pieces ∧
        (∀ piece ∈ remaining, piece.isComment = false) ∧
        literals remaining = literals pieces := by
  have one : ∀ text, ∃! pieces, Consists pieces text := by
    intro text
    obtain ⟨pieces, consists⟩ := exists_consists text
    exact ⟨pieces, consists, fun other others => others.unique consists⟩
  refine ⟨?_, one text, one _, ?_⟩
  · obtain ⟨pieces, consists⟩ := exists_consists text
    exact consists.stripComments.stripComments_eq fun _ =>
      isComment_of_mem_uncommented
  · intro pieces remaining consists left
    obtain rfl := left.unique consists.stripComments
    exact ⟨rfl, fun _ => isComment_of_mem_uncommented,
      literals_uncommented pieces⟩

/-- A slash, a comment, a literal that looks like a comment, and a comment that is
not closed. -/
def slashes : List Piece :=
  [.character '/', .character ' ', .blockComment ['/'], .literal ['/', '/'],
    .openComment ['"']]

theorem consists_slashes : Consists slashes "/ /*/*/\"//\"/*\"".toList := by
  have alone : ∀ rest : List Char, ¬ OpensComment (' ' :: rest) :=
    fun rest opens => absurd (opensComment_cons.mp opens).1 (by decide)
  have apart : ∀ rest : List Char, ¬ OpensComment ('/' :: ' ' :: rest) := by
    simp [opensComment_cons]
  exact .cons (.character (by decide) (apart _))
    (.cons (.character (by decide) (alone _)) (.cons (.blockComment (by decide))
      (.cons (.literal (.plain (by decide) (by decide)
        (.plain (by decide) (by decide) .nil)))
        (.cons (.openComment (by decide)) .nil))))

/-- The slash and the literal are left, next to each other. -/
theorem stripComments_leaves_no_comment_slashes :
    stripComments "/ /*/*/\"//\"/*\"".toList = "/ \"//\"".toList ∧
    ∀ remaining, Consists remaining "/ \"//\"".toList →
      remaining = [.character '/', .character ' ', .literal ['/', '/']] := by
  refine ⟨rfl, fun remaining left => ?_⟩
  exact ((stripComments_leaves_no_comment "/ /*/*/\"//\"/*\"".toList).2.2.2
    slashes remaining consists_slashes left).1

end ExportAudit.Json.Relaxed
