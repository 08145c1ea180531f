import ExportAudit.Report.Markup
import Mathlib.Data.List.TakeWhile

/-!
# Scanning markup

A text falls into pieces in one way, the one in which it is scanned.  The pieces
of two texts one after another are those of each of them, unless a tag or the
backslashes in front of it begin in the first text and end in the second.
-/

namespace ExportAudit.Markup

/-- A property that is checked character by character. -/
theorem forall_mem_of_all {property : Char → Prop} [DecidablePred property]
    {text : List Char}
    (checked : (text.all fun character => decide (property character)) = true) :
    ∀ character ∈ text, property character := fun character member =>
  of_decide_eq_true (List.all_eq_true.mp checked character member)

/-! ## Tags -/

/-- Whether a bracket that was opened before a text is closed in it before
another one opens. -/
def closes (text : List Char) : Bool := (closingLength? text).isSome

/-- Whether a text starts with what follows the bracket of a tag. -/
def opens : List Char → Bool
  | [] => false
  | first :: rest => opensTag first && closes rest

/-- Whether a text starts with a tag, after backslashes. -/
def leads (text : List Char) : Bool := (leadingTag? text).isSome

/-- A text is one tag. -/
def IsTag (text : List Char) : Prop := tagLength? text = some text.length

instance (text : List Char) : Decidable (IsTag text) :=
  inferInstanceAs (Decidable (_ = _))

@[simp] theorem closes_nil : closes [] = false := rfl

theorem closes_cons (character : Char) (rest : List Char) :
    closes (character :: rest) =
      (character = ']' || (character ≠ '[' && closes rest)) := by
  unfold closes
  rw [closingLength?.eq_def]
  split
  · contradiction
  · next same => cases same; rfl
  · next same => cases same; rfl
  · next notClosing notOpening same =>
    cases same
    have notClosing : character ≠ ']' := notClosing
    have notOpening : character ≠ '[' := notOpening
    simp [notClosing, notOpening]

@[simp] theorem closes_opening (rest : List Char) :
    closes ('[' :: rest) = false := rfl

theorem closes_append_of_bracketless {inner rest : List Char}
    (bracketless : ∀ character ∈ inner, character ≠ '[' ∧ character ≠ ']') :
    closes (inner ++ rest) = closes rest := by
  induction inner with
  | nil => rfl
  | cons first inner ih =>
      rw [List.forall_mem_cons] at bracketless
      rw [List.cons_append, closes_cons, ih bracketless.2]
      simp [bracketless.1]

theorem closingLength?_append {inner : List Char} (rest : List Char)
    (bracketless : ∀ character ∈ inner, character ≠ '[' ∧ character ≠ ']') :
    closingLength? (inner ++ ']' :: rest) = some (inner.length + 1) := by
  induction inner with
  | nil => rfl
  | cons first inner ih =>
      rw [List.forall_mem_cons] at bracketless
      rw [List.cons_append, closingLength?, ih bracketless.2]
      · rfl
      · exact bracketless.1.2
      · exact bracketless.1.1

theorem exists_inner {text : List Char} {length : Nat}
    (closed : closingLength? text = some length) :
    ∃ inner rest, text = inner ++ ']' :: rest ∧ length = inner.length + 1 ∧
      ∀ character ∈ inner, character ≠ '[' ∧ character ≠ ']' := by
  fun_induction closingLength? text generalizing length with
  | case1 => cases closed
  | case2 rest =>
      cases closed
      exact ⟨[], rest, rfl, rfl, by simp⟩
  | case3 rest => cases closed
  | case4 first rest notClosing notOpening ih =>
      obtain ⟨inner, found, rfl⟩ := Option.map_eq_some_iff.mp closed
      obtain ⟨inner, rest, rfl, rfl, bracketless⟩ := ih found
      refine ⟨first :: inner, rest, rfl, rfl, ?_⟩
      exact List.forall_mem_cons.mpr ⟨⟨notOpening, notClosing⟩, bracketless⟩

/-- What a tag is made of. -/
theorem tagLength?_eq_some {text : List Char} {length : Nat} :
    tagLength? text = some length ↔
      ∃ first inner rest, text = '[' :: first :: (inner ++ ']' :: rest) ∧
        length = inner.length + 3 ∧ opensTag first = true ∧
        ∀ character ∈ inner, character ≠ '[' ∧ character ≠ ']' := by
  constructor
  · intro found
    unfold tagLength? at found
    split at found
    · next first rest =>
      split at found
      · next openingFirst =>
        obtain ⟨inner, closed, rfl⟩ := Option.map_eq_some_iff.mp found
        obtain ⟨inner, rest, rfl, rfl, bracketless⟩ := exists_inner closed
        exact ⟨first, inner, rest, rfl, rfl, openingFirst, bracketless⟩
      · cases found
    · cases found
  · rintro ⟨first, inner, rest, rfl, rfl, openingFirst, bracketless⟩
    rw [tagLength?, if_pos openingFirst,
      closingLength?_append rest bracketless]
    rfl

theorem IsTag.exists_inner {tag : List Char} (isTag : IsTag tag) :
    ∃ first inner, tag = '[' :: first :: (inner ++ [']']) ∧
      opensTag first = true ∧
      ∀ character ∈ inner, character ≠ '[' ∧ character ≠ ']' := by
  obtain ⟨first, inner, rest, rfl, length, openingFirst, bracketless⟩ :=
    tagLength?_eq_some.mp isTag
  cases rest with
  | nil => exact ⟨first, inner, rfl, openingFirst, bracketless⟩
  | cons head rest =>
      simp only [List.length_cons, List.length_append] at length
      omega

/-- After its first bracket a tag opens no other one. -/
theorem IsTag.exists_tail {tag : List Char} (isTag : IsTag tag) :
    ∃ tail, tag = '[' :: tail ∧ (∀ character ∈ tail, character ≠ '[') ∧
      tail.getLast? = some ']' := by
  obtain ⟨first, inner, rfl, openingFirst, bracketless⟩ := isTag.exists_inner
  refine ⟨_, rfl, ?_, by simp [List.getLast?_cons]⟩
  rintro _ member rfl
  rcases List.mem_cons.mp member with same | member
  · rw [← same] at openingFirst
    cases openingFirst
  · rcases List.mem_append.mp member with member | member
    · exact (bracketless _ member).1 rfl
    · exact absurd member (by decide)

theorem IsTag.tagLength?_append {tag : List Char} (isTag : IsTag tag)
    (rest : List Char) : tagLength? (tag ++ rest) = some tag.length := by
  obtain ⟨first, inner, rfl, openingFirst, bracketless⟩ := isTag.exists_inner
  exact tagLength?_eq_some.mpr ⟨first, inner, rest, by simp, by simp,
    openingFirst, bracketless⟩

theorem isTag_take {text : List Char} {length : Nat}
    (found : tagLength? text = some length) : IsTag (text.take length) := by
  obtain ⟨first, inner, rest, rfl, rfl, openingFirst, bracketless⟩ :=
    tagLength?_eq_some.mp found
  have taken : ('[' :: first :: (inner ++ ']' :: rest)).take (inner.length + 3) =
      '[' :: first :: (inner ++ [']']) := by
    have parts : '[' :: first :: (inner ++ ']' :: rest) =
        '[' :: first :: (inner ++ [']']) ++ rest := by simp
    rw [parts, List.take_left' (by simp)]
  rw [taken]
  exact tagLength?_eq_some.mpr ⟨first, inner, [], rfl, by simp, openingFirst,
    bracketless⟩

/-! ## Tags after backslashes -/

@[simp] theorem opens_nil : opens [] = false := rfl

@[simp] theorem leads_nil : leads [] = false := rfl

@[simp] theorem leads_backslash (rest : List Char) :
    leads ('\\' :: rest) = leads rest := by
  simp [leads, leadingTag?]

@[simp] theorem leads_bracket (rest : List Char) :
    leads ('[' :: rest) = opens rest := by
  unfold leads leadingTag?
  rw [List.takeWhile_cons_of_neg (by decide), Option.isSome_map]
  cases rest with
  | nil => rfl
  | cons first rest =>
      change (tagLength? ('[' :: first :: rest)).isSome = _
      rw [tagLength?]
      split <;> simp [opens, closes, *]

theorem leads_other {character : Char} (rest : List Char)
    (notBackslash : character ≠ '\\') (notBracket : character ≠ '[') :
    leads (character :: rest) = false := by
  unfold leads leadingTag?
  rw [List.takeWhile_cons_of_neg (by simpa using notBackslash),
    Option.isSome_map]
  change (tagLength? (character :: rest)).isSome = false
  unfold tagLength?
  split
  · next same => exact absurd (List.cons.inj same).1 notBracket
  · rfl

/-- Where a tag may start: at a backslash or at a bracket. -/
theorem leads_cons (character : Char) (rest : List Char) :
    leads (character :: rest) =
      ((character = '\\' && leads rest) || (character = '[' && opens rest)) := by
  by_cases backslash : character = '\\'
  · simp [backslash]
  · by_cases bracket : character = '['
    · simp [bracket]
    · simp [leads_other, backslash, bracket]

@[simp] theorem leads_backslashes (count : Nat) (rest : List Char) :
    leads (List.replicate count '\\' ++ rest) = leads rest := by
  induction count with
  | zero => rfl
  | succ count ih => rw [List.replicate_succ, List.cons_append, leads_backslash, ih]

@[simp] theorem closes_backslashes (count : Nat) (rest : List Char) :
    closes (List.replicate count '\\' ++ rest) = closes rest := by
  apply closes_append_of_bracketless
  intro character member
  rw [List.eq_of_mem_replicate member]
  decide

theorem opens_backslashes_bracket (count : Nat) (rest : List Char) :
    opens (List.replicate count '\\' ++ '[' :: rest) = false := by
  cases count <;> rfl

theorem IsTag.leadingTag? {tag : List Char} (isTag : IsTag tag)
    (backslashes : Nat) (rest : List Char) :
    leadingTag? (List.replicate backslashes '\\' ++ tag ++ rest) =
      some (backslashes, tag.length) := by
  have before : (List.replicate backslashes '\\' ++ tag ++ rest).takeWhile
      (· = '\\') = List.replicate backslashes '\\' := by
    obtain ⟨first, inner, rfl, -⟩ := isTag.exists_inner
    simp [List.takeWhile_append_of_pos]
  rw [Markup.leadingTag?, before, List.length_replicate, List.append_assoc,
    List.drop_left' List.length_replicate, isTag.tagLength?_append]
  rfl

theorem IsTag.leads {tag : List Char} (isTag : IsTag tag) (backslashes : Nat)
    (rest : List Char) :
    leads (List.replicate backslashes '\\' ++ tag ++ rest) = true := by
  rw [Markup.leads, isTag.leadingTag?, Option.isSome_some]

theorem leads_of_tagLength? {text : List Char} {length : Nat}
    (found : tagLength? text = some length) : leads text = true := by
  have tag := (isTag_take found).leads 0 (text.drop length)
  rwa [List.replicate_zero, List.nil_append, List.take_append_drop] at tag

/-! ## Pieces of a text -/

/-- A text falls into pieces: tags with all backslashes in front of them, and
characters at which no tag starts. -/
inductive FallsInto : List Char → List Piece → Prop where
  | nil : FallsInto [] []
  | plain {character : Char} {rest : List Char} {pieces : List Piece}
      (noTag : leads (character :: rest) = false)
      (after : FallsInto rest pieces) :
      FallsInto (character :: rest) (.plain character :: pieces)
  | tag {body rest : List Char} {pieces : List Piece} (backslashes : Nat)
      (isTag : IsTag body) (after : FallsInto rest pieces) :
      FallsInto (List.replicate backslashes '\\' ++ body ++ rest)
        (.tag backslashes body :: pieces)

theorem scan_cons_of_leads_eq_false {character : Char} {rest : List Char}
    (noTag : leads (character :: rest) = false) :
    scan (character :: rest) = .plain character :: scan rest := by
  rw [scan]
  split
  · next found => simp [leads, found] at noTag
  · rfl

theorem IsTag.scan {tag : List Char} (isTag : IsTag tag) (backslashes : Nat)
    (rest : List Char) :
    scan (List.replicate backslashes '\\' ++ tag ++ rest) =
      .tag backslashes tag :: scan rest := by
  have leading := isTag.leadingTag? backslashes rest
  have body : (List.replicate backslashes '\\' ++ tag ++ rest).drop backslashes =
      tag ++ rest := by
    rw [List.append_assoc, List.drop_left' List.length_replicate]
  cases text : List.replicate backslashes '\\' ++ tag ++ rest with
  | nil =>
      rw [text] at leading
      cases leading
  | cons first others =>
      rw [text] at leading body
      rw [Markup.scan]
      split
      · next found =>
        cases leading.symm.trans found
        change Piece.tag _ (((first :: others).drop backslashes).take tag.length) ::
          Markup.scan ((first :: others).drop (backslashes + tag.length)) = _
        rw [← List.drop_drop, body, List.take_left, List.drop_left]
      · next found => cases leading.symm.trans found

theorem FallsInto.scan_eq {text : List Char} {pieces : List Piece}
    (falls : FallsInto text pieces) : scan text = pieces := by
  induction falls with
  | nil => rw [scan]
  | plain noTag after ih => rw [scan_cons_of_leads_eq_false noTag, ih]
  | tag backslashes isTag after ih => rw [isTag.scan, ih]

theorem backslashes_append_drop (text : List Char) :
    List.replicate (text.takeWhile (· = '\\')).length '\\' ++
      text.drop (text.takeWhile (· = '\\')).length = text := by
  have backslashes : text.takeWhile (· = '\\') =
      List.replicate (text.takeWhile (· = '\\')).length '\\' :=
    List.eq_replicate_of_mem fun _ member => by
      simpa using List.mem_takeWhile_imp member
  rw [← backslashes]
  exact (List.prefix_iff_eq_append.mp (List.takeWhile_prefix _))

/-- A text falls into the pieces in which it is scanned. -/
theorem fallsInto_scan (text : List Char) : FallsInto text (scan text) := by
  fun_induction scan text with
  | case1 => exact .nil
  | case2 first others backslashes length found _ ih =>
      obtain ⟨length, tagLength, same⟩ := Option.map_eq_some_iff.mp found
      cases same
      rw [← List.drop_drop] at ih ⊢
      have falls := FallsInto.tag
        ((first :: others).takeWhile (· = '\\')).length (isTag_take tagLength) ih
      rwa [List.append_assoc, List.take_append_drop,
        backslashes_append_drop] at falls
  | case3 first others found ih =>
      exact .plain (by rw [leads, found]; rfl) ih

/-! ## Texts one after another -/

section

variable {text following : List Char} {pieces others : List Piece}

theorem closes_append (text : List Char) (unclosed : closes following = false) :
    closes (text ++ following) = closes text := by
  induction text with
  | nil => exact unclosed
  | cons first rest ih => rw [List.cons_append, closes_cons, closes_cons, ih]

theorem opens_append {first : Char} (rest : List Char)
    (unclosed : closes following = false) :
    opens (first :: rest ++ following) = opens (first :: rest) := by
  rw [List.cons_append, opens, opens, closes_append rest unclosed]

theorem getLast?_of_suffix {rest : List Char} (suffix : rest <:+ text)
    (ends : text.getLast? ≠ some '\\') : rest.getLast? ≠ some '\\' := by
  obtain ⟨before, rfl⟩ := suffix
  intro same
  rw [List.getLast?_append, same] at ends
  exact ends rfl

theorem leads_append {first : Char} {rest : List Char}
    (unclosed : closes following = false) (unopened : opens following = false)
    (apart : (first :: rest).getLast? ≠ some '\\' ∨ leads following = false) :
    leads (first :: rest ++ following) = leads (first :: rest) := by
  induction rest generalizing first with
  | nil =>
      have after : (first = '\\' && leads following) = false := by
        rcases apart with apart | apart
        · simpa using fun same : first = '\\' => absurd (same ▸ rfl) apart
        · simp [apart]
      rw [List.singleton_append, leads_cons, leads_cons, after, unopened]
      simp
  | cons second rest ih =>
      rw [List.getLast?_cons_cons] at apart
      rw [List.cons_append, leads_cons, leads_cons, ih apart,
        opens_append rest unclosed]

/-- A text and one that follows it fall into their own pieces if no tag begins
in the first and ends in the second. -/
theorem FallsInto.append (falls : FallsInto text pieces)
    (after : FallsInto following others) (unclosed : closes following = false)
    (unopened : opens following = false)
    (apart : text.getLast? ≠ some '\\' ∨ leads following = false) :
    FallsInto (text ++ following) (pieces ++ others) := by
  induction falls with
  | nil => exact after
  | @plain character rest pieces noTag _ ih =>
      have apartRest := apart.imp_left (getLast?_of_suffix (List.suffix_cons _ _))
      refine .plain ?_ (ih apartRest)
      exact (leads_append unclosed unopened apart).trans noTag
  | @tag body rest pieces backslashes isTag _ ih =>
      have apartRest := apart.imp_left (getLast?_of_suffix (List.suffix_append _ _))
      rw [List.append_assoc]
      exact .tag backslashes isTag (ih apartRest)

theorem flatMap_replicate_eq_replicate {α β : Type} {change : α → List β} {item : α}
    {changed : β} (single : change item = [changed]) (count : Nat) :
    (List.replicate count item).flatMap change = List.replicate count changed := by
  rw [List.flatMap_replicate, single]
  exact List.flatten_replicate_singleton

theorem fallsInto_backslashes (count : Nat) :
    FallsInto (List.replicate count '\\')
      (List.replicate count (.plain '\\')) := by
  induction count with
  | zero => exact .nil
  | succ count ih =>
      refine .plain ?_ ih
      rw [← List.replicate_succ, ← List.append_nil (List.replicate _ _),
        leads_backslashes, leads_nil]

theorem FallsInto.append_backslashes (falls : FallsInto text pieces)
    (count : Nat) :
    FallsInto (text ++ List.replicate count '\\')
      (pieces ++ List.replicate count (.plain '\\')) := by
  have only := List.append_nil (List.replicate count '\\')
  refine falls.append (fallsInto_backslashes count) ?_ ?_ (.inr ?_)
  · rw [← only, closes_backslashes, closes_nil]
  · cases count <;> rfl
  · rw [← only, leads_backslashes, leads_nil]

end

end ExportAudit.Markup
