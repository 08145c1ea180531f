import ExportAudit.Proofs.Json.Commas
import ExportAudit.Proofs.Json.Faults

/-!
# What is accepted

Which texts are read as a value: those of a text that JSON accepts, decorated with
blanks, comments and trailing commas, and besides these only texts with an
irregular comment or comma, one that is dropped although it stands where none may.
-/

namespace ExportAudit.Json.Relaxed

/-- A text of JSON with comments and trailing commas that denotes a value: one that
JSON accepts, with separators between its tokens, perhaps a comment at its end, and
a comma before what closes an array or an object that holds something. -/
inductive IsRelaxed (value : Json) : List Char → Prop where
  | decorated {tokens decorated : List Token} {plain text ending : List Char}
      (accepted : readWithin limits plain = .ok value)
      (spells : Spells Blank tokens plain)
      (trailing : Trailing none tokens decorated)
      (separated : Spells Separator decorated text) (ends : Ending ending) :
      IsRelaxed value (text ++ ending)

/-- Pieces are irregular: comments stand inside a word, a block comment is not
closed, or a comma is all that an array or an object holds. -/
inductive IsIrregular (pieces : List Piece) : Prop where
  | word (splits : SplitsWord pieces)
  | openComment {body : List Char} (member : Piece.openComment body ∈ pieces)
  | comma (alone : HoldsLoneComma pieces)

/-! ## Faults -/

theorem withoutComments_sublist (region : Region) (text : List Char) :
    (withoutComments region text).Sublist text := by
  fun_induction withoutComments region text <;> simp_all

theorem withoutTrailingCommas_sublist (inLiteral : Bool) (text : List Char) :
    (withoutTrailingCommas inLiteral text).Sublist text := by
  fun_induction withoutTrailingCommas inLiteral text <;> simp_all

/-- There is ground in a text for the fault for which it is not read. -/
theorem hasGround_of_read {text : List Char} {fault : Fault}
    (failed : read text = .error fault) : fault.HasGround limits text := by
  have ground := hasGround_of_readWithin failed
  exact ground.mono ((withoutTrailingCommas_sublist _ _).trans
    (withoutComments_sublist _ text))

/-! ## Texts that are read -/

/-- What is left of a text decides which of its pieces can form tokens: its
literals are closed and no slash stands alone. -/
theorem formTokens_of_spells {tokens : List Token} {text : List Char}
    {pieces : List Piece} (consists : Consists pieces text)
    (spells : Spells Blank tokens (stripTrailingCommas (stripComments text)))
    (regular : ¬ IsIrregular pieces) : FormTokens pieces := by
  obtain ⟨fewer, left, kept⟩ := consists.stripComments.exists_stripTrailingCommas
    fun _ => isComment_of_mem_uncommented
  obtain ⟨others, consistsLeft, lexed⟩ :=
    exists_lexed (spells_separator spells) .nothing
  rw [List.append_nil] at consistsLeft
  cases left.unique consistsLeft
  have inToken : ∀ piece ∈ pieces, piece.isComment = false →
      piece.isSolid = true → piece ≠ .character ',' →
      ∃ token ∈ tokens, piece ∈ piecesOf token := by
    intro piece member noComment solid noComma
    have uncommented : piece ∈ uncommented pieces :=
      List.mem_filter.mpr ⟨member, by simpa using noComment⟩
    have found := List.mem_filter.mpr ⟨kept piece uncommented noComma, solid⟩
    rw [lexed.solid] at found
    exact List.mem_flatMap.mp found
  constructor
  · intro body member
    obtain ⟨token, _, inside⟩ := inToken _ member rfl rfl nofun
    exact openLiteral_notMem_piecesOf token body inside
  · intro member
    obtain ⟨token, _, inside⟩ := inToken _ member rfl rfl (by simp)
    exact slash_notMem_piecesOf token inside
  · exact fun body member => regular (.openComment member)
  · exact fun splits => regular (.word splits)

theorem IsRelaxed.read_eq_ok {value : Json} {text : List Char}
    (relaxed : IsRelaxed value text) : read text = .ok value := by
  cases relaxed with
  | decorated accepted spells trailing separated ends =>
      exact (read_separated accepted spells trailing separated ends).2

/-- A text of JSON with comments and trailing commas is regular. -/
theorem IsRelaxed.not_isIrregular {value : Json} {text : List Char}
    {pieces : List Piece} (relaxed : IsRelaxed value text)
    (consists : Consists pieces text) : ¬ IsIrregular pieces := by
  cases relaxed with
  | decorated accepted spells trailing separated ends =>
      have adjacent := isChain_of_accepted accepted spells
      have apart := trailing.isChain (adjacent.imp fun _ _ near => near.words)
      obtain ⟨others, found, lexed⟩ := exists_lexed separated ends
      cases consists.unique found
      intro irregular
      cases irregular with
      | word splits => exact lexed.whole apart splits
      | openComment member => exact lexed.closed _ member
      | comma alone =>
          exact trailing.not_loneComma adjacent (lexed.holdsLoneComma_iff.mp alone)

/-- A regular text that is read is one of JSON with comments and trailing
commas. -/
theorem isRelaxed_of_read {value : Json} {text : List Char}
    {pieces : List Piece} (accepted : read text = .ok value)
    (consists : Consists pieces text) (regular : ¬ IsIrregular pieces) :
    IsRelaxed value text := by
  obtain ⟨tokens, spells, denotes⟩ := readWithin_eq_ok.mp accepted
  obtain ⟨decorated, tokenized⟩ := consists.exists_tokenized
    (formTokens_of_spells consists spells regular)
  cases tokenized with
  | intro separated ends stripped =>
      obtain ⟨others, found, lexed⟩ := exists_lexed separated ends
      cases consists.unique found
      have filled : ¬ LoneComma (.mark .comma :: decorated) := by
        rw [loneComma_cons, not_or]
        exact ⟨by simp [Token.Opens],
          fun alone => regular (.comma (lexed.holdsLoneComma_iff.mpr alone))⟩
      obtain ⟨left, trailing, spelled⟩ := exists_trailing stripped _ filled
      cases spelled.unique spells
      obtain ⟨first, rest, rfl, opens⟩ := denotes.exists_cons
      have starts := trailing.first (by simpa using opens)
      exact .decorated accepted spells starts separated ends

/-- A text is one of JSON with comments and trailing commas exactly if it is read
and its pieces are regular: no comments stand inside a word, every block comment is
closed, and no array or object holds a comma alone.  A text that is not read is
malformed, or there is ground in it for a fault of its size. -/
theorem isRelaxed_iff (text : List Char) :
    (∀ value, IsRelaxed value text ↔
      read text = .ok value ∧ ∀ pieces, Consists pieces text → ¬ IsIrregular pieces) ∧
    ∀ fault, read text = .error fault → fault.HasGround limits text := by
  refine ⟨fun value => ⟨fun relaxed => ?_, fun accepted => ?_⟩,
    fun _ => hasGround_of_read⟩
  · exact ⟨relaxed.read_eq_ok, fun _ => relaxed.not_isIrregular⟩
  · obtain ⟨pieces, consists⟩ := exists_consists text
    exact isRelaxed_of_read accepted.1 consists (accepted.2 pieces consists)

/-! ### Irregular texts that are read -/

/-- A comma alone in an array, with a comment behind it. -/
def loneCommaPieces : List Piece :=
  [.character '[', .character ',', .blockComment [], .character ']']

/-- A number with a comment between its digits. -/
def splitNumberPieces : List Piece :=
  [.character '1', .blockComment [], .character '2']

theorem consists_loneComma : Consists loneCommaPieces "[,/**/]".toList :=
  .cons (fits_mark .openArray _) (.cons (fits_mark .comma _)
    (.cons (.blockComment (by simp)) (.cons (fits_mark .closeArray _) .nil)))

theorem consists_splitNumber : Consists splitNumberPieces "1/**/2".toList :=
  .cons (fits_word (by decide) _) (.cons (.blockComment (by simp))
    (.cons (fits_word (by decide) _) .nil))

theorem consists_openComment :
    Consists [.character '1', .openComment []] "1/*".toList :=
  .cons (fits_word (by decide) _) (.cons (.openComment (by simp)) .nil)

/-- An array of a comma, two digits with a comment between them, and a comment that
is not closed are read, though none is JSON with comments and trailing commas. -/
theorem isRelaxed_iff_irregular :
    (read "[,/**/]".toList = .ok (.array []) ∧
      ¬ IsRelaxed (.array []) "[,/**/]".toList) ∧
    (read "1/**/2".toList = .ok (.integer 12) ∧
      ¬ IsRelaxed (.integer 12) "1/**/2".toList) ∧
    (read "1/*".toList = .ok (.integer 1) ∧
      ¬ IsRelaxed (.integer 1) "1/*".toList) ∧
    read "[1".toList = .error .malformed ∧
      Fault.HasGround limits "[1".toList .malformed := by
  have alone : HoldsLoneComma loneCommaPieces :=
    ⟨'[', ']', .inl rfl, .inl rfl, List.infix_rfl⟩
  have splits : SplitsWord splitNumberPieces :=
    ⟨'1', _, by decide, ⟨[.blockComment []], '2', [], rfl, List.cons_ne_nil _ _,
      by simp [Piece.isComment], by decide⟩, List.suffix_rfl⟩
  refine ⟨⟨rfl, fun relaxed => ?_⟩, ⟨rfl, fun relaxed => ?_⟩,
    ⟨rfl, fun relaxed => ?_⟩, rfl, (isRelaxed_iff _).2 _ rfl⟩
  · exact (((isRelaxed_iff _).1 _).mp relaxed).2 _ consists_loneComma (.comma alone)
  · exact (((isRelaxed_iff _).1 _).mp relaxed).2 _ consists_splitNumber (.word splits)
  · exact (((isRelaxed_iff _).1 _).mp relaxed).2 _ consists_openComment
      (.openComment (List.mem_cons_of_mem _ List.mem_cons_self))

end ExportAudit.Json.Relaxed
