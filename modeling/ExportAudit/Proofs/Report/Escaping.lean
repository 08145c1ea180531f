import ExportAudit.Proofs.Report.Markup
import ExportAudit.Report

/-!
# Escaping and printing markup

An escaped text falls into the pieces of the text itself, with an odd number of
backslashes in front of each tag.  So what is printed of it is the text, except
that backslashes directly before a bracket are left out if the bracket opens no
tag.
-/

namespace ExportAudit.Markup

/-! ## Escaped texts -/

/-- A piece as it is scanned once it is escaped. -/
def Piece.afterEscape : Piece → Piece
  | .plain character => .plain character
  | .tag backslashes body => .tag (2 * backslashes + 1) body

section

variable {text : List Char} {pieces : List Piece}

theorem FallsInto.closes_escaped (falls : FallsInto text pieces) :
    closes (pieces.flatMap Piece.escaped) = closes text := by
  induction falls with
  | nil => rfl
  | plain noTag after ih =>
      rw [List.flatMap_cons, Piece.escaped, List.singleton_append, closes_cons,
        closes_cons, ih]
  | tag backslashes isTag after ih =>
      obtain ⟨first, inner, rfl, -⟩ := isTag.exists_inner
      rw [List.flatMap_cons, Piece.escaped, List.append_assoc, List.append_assoc,
        closes_backslashes, closes_backslashes]
      rfl

theorem FallsInto.opens_escaped (falls : FallsInto text pieces) :
    opens (pieces.flatMap Piece.escaped) = opens text := by
  cases falls with
  | nil => rfl
  | plain noTag after =>
      rw [List.flatMap_cons, Piece.escaped, List.singleton_append, opens, opens,
        after.closes_escaped]
  | tag backslashes isTag after =>
      obtain ⟨first, inner, rfl, -⟩ := isTag.exists_inner
      rw [List.flatMap_cons, Piece.escaped, List.append_assoc, List.append_assoc,
        List.cons_append, opens_backslashes_bracket, List.cons_append,
        opens_backslashes_bracket]

theorem FallsInto.leads_escaped (falls : FallsInto text pieces) :
    leads (pieces.flatMap Piece.escaped) = leads text := by
  induction falls with
  | nil => rfl
  | plain noTag after ih =>
      rw [List.flatMap_cons, Piece.escaped, List.singleton_append, leads_cons,
        leads_cons, ih, after.opens_escaped]
  | tag backslashes isTag after ih =>
      rw [List.flatMap_cons, Piece.escaped, isTag.leads, isTag.leads]

/-- An escaped text falls into the pieces of the text, with an odd number of
backslashes in front of each tag. -/
theorem FallsInto.escaped (falls : FallsInto text pieces) :
    FallsInto (pieces.flatMap Piece.escaped) (pieces.map Piece.afterEscape) := by
  induction falls with
  | nil => exact .nil
  | plain noTag after ih =>
      have same := (FallsInto.plain noTag after).leads_escaped
      exact .plain (same.trans noTag) ih
  | tag backslashes isTag after ih => exact .tag _ isTag ih

theorem FallsInto.getLast?_escaped (falls : FallsInto text pieces) :
    (pieces.flatMap Piece.escaped).getLast? = text.getLast? := by
  induction falls with
  | nil => rfl
  | plain noTag after ih =>
      rw [List.flatMap_cons, Piece.escaped, List.singleton_append,
        List.getLast?_cons, List.getLast?_cons, ih]
  | tag backslashes isTag after ih =>
      obtain ⟨first, inner, rfl, -⟩ := isTag.exists_inner
      simp only [List.flatMap_cons, Piece.escaped, List.getLast?_append, ih]
      simp [List.getLast?_cons]

/-- How many backslashes end an escaped text that ends in some. -/
def backslashesAfterEscape (count : Nat) : Nat := if count = 1 then 2 else count

theorem endsWithOneBackslash_append (count : Nat)
    (ends : text.getLast? ≠ some '\\') :
    endsWithOneBackslash (text ++ List.replicate count '\\') =
      decide (count = 1) := by
  unfold endsWithOneBackslash
  rw [List.reverse_append, List.reverse_replicate]
  rw [List.getLast?_eq_head?_reverse] at ends
  generalize text.reverse = backwards at ends ⊢
  match count with
  | 0 =>
      split
      · rfl
      · next same =>
        rw [List.replicate_zero, List.nil_append] at same
        rw [same] at ends
        exact absurd rfl ends
      · rfl
  | 1 =>
      split
      · next same =>
        cases same
        exact absurd rfl ends
      · rfl
      · next other => exact absurd rfl (other backwards)
  | count + 2 => simp [List.replicate_succ]

/-- Escaping keeps the backslashes that end a text, but doubles a single one. -/
theorem escape_append_backslashes (count : Nat)
    (ends : text.getLast? ≠ some '\\') :
    escape (text ++ List.replicate count '\\') =
      (scan text).flatMap Piece.escaped ++
        List.replicate (backslashesAfterEscape count) '\\' := by
  have falls := fallsInto_scan text
  have pieces := (falls.append_backslashes count).scan_eq
  have escaped := @flatMap_replicate_eq_replicate _ _ Piece.escaped (.plain '\\')
    '\\' rfl count
  have single := endsWithOneBackslash_append count
    (falls.getLast?_escaped.symm ▸ ends)
  simp only [escape, pieces, List.flatMap_append, escaped, single,
    decide_eq_true_eq, backslashesAfterEscape]
  split
  · next once => simp [once]
  · rfl

theorem escape_eq (ends : text.getLast? ≠ some '\\') :
    escape text = (scan text).flatMap Piece.escaped := by
  have escaped := escape_append_backslashes 0 ends
  rwa [backslashesAfterEscape, if_neg (by decide), List.replicate_zero,
    List.append_nil, List.append_nil] at escaped

end

/-! ## Texts between style tags -/

theorem isTag_of_style {level : Level} {style : String}
    (styled : level.style? = some style) :
    IsTag ("[" ++ style ++ "]").toList ∧ IsTag ("[/" ++ style ++ "]").toList := by
  cases level <;> cases styled <;> decide

/-- A text that ends in backslashes falls into its pieces between style tags;
the backslashes belong to the closing tag. -/
theorem FallsInto.styled {text : List Char} {pieces : List Piece}
    {style : String} (falls : FallsInto text pieces)
    (ends : text.getLast? ≠ some '\\')
    (opening : IsTag ("[" ++ style ++ "]").toList)
    (closing : IsTag ("[/" ++ style ++ "]").toList) (count : Nat) :
    FallsInto (styled style (text ++ List.replicate count '\\'))
      (.tag 0 ("[" ++ style ++ "]").toList ::
        (pieces ++ [.tag count ("[/" ++ style ++ "]").toList])) := by
  have last : FallsInto (List.replicate count '\\' ++
      ("[/" ++ style ++ "]").toList) [.tag count ("[/" ++ style ++ "]").toList] := by
    have only := FallsInto.tag count closing .nil
    rwa [List.append_nil] at only
  obtain ⟨first, inner, tag, -⟩ := closing.exists_inner
  have unclosed : closes (List.replicate count '\\' ++
      ("[/" ++ style ++ "]").toList) = false := by
    rw [closes_backslashes, tag, closes_opening]
  have unopened : opens (List.replicate count '\\' ++
      ("[/" ++ style ++ "]").toList) = false := by
    rw [tag, opens_backslashes_bracket]
  have whole := FallsInto.tag 0 opening
    (falls.append last unclosed unopened (.inl ends))
  rw [List.replicate_zero, List.nil_append, ← List.append_assoc] at whole
  rwa [ExportAudit.styled, ← List.append_assoc, List.append_assoc]

/-! ## Printing -/

theorem printPieces_plain (character : Char) (pieces : List Piece) :
    printPieces (.plain character :: pieces) =
      if character = '\\' ∧ pieces.head? = some (.plain '[') then
        printPieces pieces
      else character :: printPieces pieces := by
  split
  · next loose =>
    obtain ⟨rfl, bracket⟩ := loose
    obtain ⟨rest, rfl⟩ := List.head?_eq_some_iff.mp bracket
    rfl
  · next tight =>
    rw [printPieces]
    · rfl
    · rintro rest ⟨⟩ rfl
      exact tight ⟨rfl, rfl⟩

theorem printPieces_tag (backslashes : Nat) (body : List Char)
    (pieces : List Piece) :
    printPieces (.tag backslashes body :: pieces) =
      (Piece.tag backslashes body).printed ++ printPieces pieces := rfl

/-- What is printed after a tag starts afresh. -/
theorem printPieces_append_tag (pieces : List Piece) (backslashes : Nat)
    (body : List Char) (others : List Piece) :
    printPieces (pieces ++ .tag backslashes body :: others) =
      printPieces pieces ++ printPieces (.tag backslashes body :: others) := by
  induction pieces with
  | nil => rfl
  | cons piece pieces ih =>
      cases piece with
      | plain character =>
          have head : (pieces ++ .tag backslashes body :: others).head? =
              some (.plain '[') ↔ pieces.head? = some (.plain '[') := by
            cases pieces <;> simp
          simp only [List.cons_append, printPieces_plain, head, ih]
          split <;> rfl
      | tag number tag =>
          rw [List.cons_append, printPieces_tag, printPieces_tag, ih,
            List.append_assoc]

/-! ## Loose backslashes -/

/-- A text starts with a bracket that opens no tag. -/
def OpensNothing (text : List Char) : Prop :=
  text.head? = some '[' ∧ tagLength? text = none

instance (text : List Char) : Decidable (OpensNothing text) :=
  inferInstanceAs (Decidable (_ ∧ _))

/-- A text without its loose backslashes: those directly before a bracket that
opens no tag. -/
def withoutLooseBackslashes : List Char → List Char
  | [] => []
  | character :: rest =>
      if character = '\\' ∧ OpensNothing rest then
        withoutLooseBackslashes rest
      else character :: withoutLooseBackslashes rest

/-- A text has a loose backslash. -/
def HasLooseBackslash (text : List Char) : Prop :=
  ∃ rest, '\\' :: rest <:+ text ∧ OpensNothing rest

theorem length_withoutLooseBackslashes_le (text : List Char) :
    (withoutLooseBackslashes text).length ≤ text.length := by
  fun_induction withoutLooseBackslashes text with
  | case1 => rfl
  | case2 first rest loose ih => exact Nat.le_succ_of_le ih
  | case3 first rest tight ih => exact Nat.succ_le_succ ih

theorem hasLooseBackslash_cons {character : Char} {rest : List Char} :
    HasLooseBackslash (character :: rest) ↔
      (character = '\\' ∧ OpensNothing rest) ∨ HasLooseBackslash rest := by
  unfold HasLooseBackslash
  constructor
  · rintro ⟨after, suffix, opensNothing⟩
    rcases List.suffix_cons_iff.mp suffix with same | suffix
    · cases same
      exact .inl ⟨rfl, opensNothing⟩
    · exact .inr ⟨after, suffix, opensNothing⟩
  · rintro (⟨rfl, opensNothing⟩ | ⟨after, suffix, opensNothing⟩)
    · exact ⟨rest, List.suffix_rfl, opensNothing⟩
    · exact ⟨after, suffix.trans (List.suffix_cons _ _), opensNothing⟩

theorem withoutLooseBackslashes_eq_self_iff {text : List Char} :
    withoutLooseBackslashes text = text ↔ ¬ HasLooseBackslash text := by
  fun_induction withoutLooseBackslashes text with
  | case1 => simp [HasLooseBackslash]
  | case2 first rest loose ih =>
      have shorter := length_withoutLooseBackslashes_le rest
      have different : withoutLooseBackslashes rest ≠ first :: rest := by
        intro same
        rw [same, List.length_cons] at shorter
        omega
      exact iff_of_false different (not_not_intro
        (hasLooseBackslash_cons.mpr (.inl loose)))
  | case3 first rest tight ih =>
      simp [ih, hasLooseBackslash_cons, tight]

theorem withoutLooseBackslashes_append {tail rest : List Char}
    (unopened : ∀ character ∈ tail, character ≠ '[')
    (ends : tail.getLast? ≠ some '\\') :
    withoutLooseBackslashes (tail ++ rest) =
      tail ++ withoutLooseBackslashes rest := by
  induction tail with
  | nil => rfl
  | cons first others ih =>
      rw [List.forall_mem_cons] at unopened
      have tight : ¬ (first = '\\' ∧ OpensNothing (others ++ rest)) := by
        rintro ⟨rfl, bracket, -⟩
        cases others with
        | nil => exact ends rfl
        | cons second others =>
            cases bracket
            exact unopened.2 _ List.mem_cons_self rfl
      rw [List.cons_append, withoutLooseBackslashes, if_neg tight,
        ih unopened.2 (getLast?_of_suffix (List.suffix_cons _ _) ends),
        List.cons_append]

/-- The backslashes in front of a tag are not loose, nor are those in it. -/
theorem IsTag.withoutLooseBackslashes {tag : List Char} (isTag : IsTag tag)
    (backslashes : Nat) (rest : List Char) :
    withoutLooseBackslashes (List.replicate backslashes '\\' ++ tag ++ rest) =
      List.replicate backslashes '\\' ++ tag ++
        Markup.withoutLooseBackslashes rest := by
  induction backslashes with
  | zero =>
      obtain ⟨tail, rfl, unopened, ends⟩ := isTag.exists_tail
      have inside := @withoutLooseBackslashes_append tail rest unopened (by
        rw [ends]
        decide)
      rw [List.replicate_zero, List.nil_append, List.cons_append,
        Markup.withoutLooseBackslashes, if_neg (by simp), inside, List.cons_append]
  | succ backslashes ih =>
      have tight : ¬ OpensNothing (List.replicate backslashes '\\' ++ tag ++ rest) := by
        rintro ⟨bracket, noTag⟩
        cases backslashes with
        | zero =>
            have found := isTag.tagLength?_append rest
            cases noTag.symm.trans found
        | succ backslashes => cases bracket
      rw [List.replicate_succ, List.cons_append, List.cons_append,
        Markup.withoutLooseBackslashes, if_neg (fun loose => tight loose.2), ih]
      rfl

theorem FallsInto.head?_afterEscape {text : List Char} {pieces : List Piece}
    (falls : FallsInto text pieces) (noTag : leads text = false) :
    (pieces.map Piece.afterEscape).head? = some (.plain '[') ↔
      OpensNothing text := by
  cases falls with
  | nil => simp [OpensNothing]
  | @plain character rest pieces _ after =>
      have untagged : tagLength? (character :: rest) = none := by
        cases found : tagLength? (character :: rest) with
        | none => rfl
        | some length => cases noTag.symm.trans (leads_of_tagLength? found)
      simp [OpensNothing, Piece.afterEscape, untagged]
  | tag backslashes isTag after =>
      rw [isTag.leads] at noTag
      cases noTag

/-- What is printed of an escaped text is the text without its loose
backslashes. -/
theorem FallsInto.printPieces_afterEscape {text : List Char}
    {pieces : List Piece} (falls : FallsInto text pieces) :
    printPieces (pieces.map Piece.afterEscape) = withoutLooseBackslashes text := by
  induction falls with
  | nil => rfl
  | @plain character rest pieces noTag after ih =>
      have same : (character = '\\' ∧
          (pieces.map Piece.afterEscape).head? = some (.plain '[')) ↔
          (character = '\\' ∧ OpensNothing rest) := by
        refine and_congr_right fun backslash => ?_
        rw [backslash, leads_backslash] at noTag
        exact after.head?_afterEscape noTag
      rw [List.map_cons, Piece.afterEscape, printPieces_plain,
        withoutLooseBackslashes, ih]
      simp only [same]
  | tag backslashes isTag after ih =>
      have half : (2 * backslashes + 1) / 2 = backslashes := by omega
      have odd : (2 * backslashes + 1) % 2 = 1 := by omega
      rw [isTag.withoutLooseBackslashes, List.map_cons, Piece.afterEscape,
        printPieces_tag, ih, Piece.printed, half, if_pos odd]

/-! ## Printing escaped texts -/

section

variable {text : List Char}

theorem FallsInto.print_eq {pieces : List Piece}
    (falls : FallsInto text pieces) : print text = printPieces pieces := by
  rw [print, falls.scan_eq]

/-- A text that does not end in a backslash is printed without its loose
backslashes once it is escaped. -/
theorem print_escape (ends : text.getLast? ≠ some '\\') :
    print (escape text) = withoutLooseBackslashes text := by
  have falls := fallsInto_scan text
  rw [escape_eq ends, falls.escaped.print_eq, falls.printPieces_afterEscape]

/-- Style tags show nothing, and nothing of the text between them is taken for
a part of them. -/
theorem print_styled_escape {style : String} (ends : text.getLast? ≠ some '\\')
    (opening : IsTag ("[" ++ style ++ "]").toList)
    (closing : IsTag ("[/" ++ style ++ "]").toList) :
    print (styled style (escape text)) = withoutLooseBackslashes text := by
  have falls := fallsInto_scan text
  have line := falls.escaped.styled (falls.getLast?_escaped.symm ▸ ends) opening
    closing 0
  rw [List.replicate_zero, List.append_nil] at line
  rw [escape_eq ends, line.print_eq, printPieces_tag, printPieces_append_tag,
    falls.printPieces_afterEscape]
  exact List.append_nil _

theorem print_cons {character : Char} (notBackslash : character ≠ '\\')
    (notBracket : character ≠ '[') :
    print (character :: text) = character :: print text := by
  rw [print, scan_cons_of_leads_eq_false (leads_other _ notBackslash notBracket),
    printPieces_plain, if_neg fun loose => notBackslash loose.1, print]

theorem print_append {plain : List Char}
    (meaningless : ∀ character ∈ plain, character ≠ '\\' ∧ character ≠ '[') :
    print (plain ++ text) = plain ++ print text := by
  induction plain with
  | nil => rfl
  | cons first plain ih =>
      rw [List.forall_mem_cons] at meaningless
      rw [List.cons_append, print_cons meaningless.1.1 meaningless.1.2,
        ih meaningless.2, List.cons_append]

end

/-! ## Characters of printed and of escaped texts -/

theorem FallsInto.printPieces_sublist {text : List Char} {pieces : List Piece}
    (falls : FallsInto text pieces) : (printPieces pieces).Sublist text := by
  induction falls with
  | nil => exact .slnil
  | plain noTag after ih =>
      rw [printPieces_plain]
      split
      · exact ih.cons _
      · exact ih.cons_cons _
  | @tag body rest pieces backslashes isTag after ih =>
      rw [printPieces_tag, Piece.printed]
      refine .append (.append ?_ ?_) ih
      · exact (List.replicate_sublist_replicate _).mpr (Nat.div_le_self ..)
      · split
        · exact .refl _
        · exact List.nil_sublist _

theorem FallsInto.mem_escaped {text : List Char} {pieces : List Piece}
    (falls : FallsInto text pieces) {character : Char}
    (member : character ∈ pieces.flatMap Piece.escaped) :
    character = '\\' ∨ character ∈ text := by
  induction falls with
  | nil => cases member
  | plain noTag after ih =>
      rw [List.flatMap_cons, Piece.escaped, List.singleton_append] at member
      rcases List.mem_cons.mp member with rfl | later
      · exact .inr List.mem_cons_self
      · exact (ih later).imp_right (List.mem_cons_of_mem _)
  | tag backslashes isTag after ih =>
      rw [List.flatMap_cons, Piece.escaped, List.mem_append, List.mem_append] at member
      rcases member with (backslash | inside) | later
      · exact .inl (List.eq_of_mem_replicate backslash)
      · exact .inr (List.mem_append_left _ (List.mem_append_right _ inside))
      · exact (ih later).imp_right (List.mem_append_right _)

theorem print_sublist (text : List Char) : (print text).Sublist text :=
  (fallsInto_scan text).printPieces_sublist

/-- Escaping adds nothing but backslashes. -/
theorem forall_mem_escape {property : Char → Prop} (backslash : property '\\')
    {text : List Char} (inside : ∀ character ∈ text, property character) :
    ∀ character ∈ escape text, property character := by
  have escaped : ∀ character ∈ (scan text).flatMap Piece.escaped,
      property character := by
    intro character member
    rcases (fallsInto_scan text).mem_escaped member with rfl | member
    · exact backslash
    · exact inside character member
  simp only [escape]
  split
  · exact List.forall_mem_append.mpr ⟨escaped, by simpa using backslash⟩
  · exact escaped

theorem forall_mem_styled_escape (property : Char → Prop) {style : String}
    {text : List Char}
    (opening : ∀ character ∈ ("[" ++ style ++ "]").toList, property character)
    (closing : ∀ character ∈ ("[/" ++ style ++ "]").toList, property character)
    (backslash : property '\\') (inside : ∀ character ∈ text, property character) :
    ∀ character ∈ styled style (escape text), property character :=
  List.forall_mem_append.mpr ⟨List.forall_mem_append.mpr
    ⟨opening, forall_mem_escape backslash inside⟩, closing⟩

end ExportAudit.Markup
