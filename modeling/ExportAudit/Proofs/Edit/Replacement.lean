import ExportAudit.Edit
import ExportAudit.Proofs.Text.Boundary

/-!
# Replacing disjoint ranges

The edits that are kept of a list stand in order and are disjoint, and every
other edit starts inside one of them.  Applying kept edits from the last to the
first replaces all their ranges at once: the bytes outside the ranges stay, in
their order.  If the ranges end at boundaries of characters, a text stays a
text.
-/

namespace ExportAudit.Edit

open Text.Utf8 (encode IsBoundary)

/-! ## Ranges in order -/

/-- Edits start at or after a position, and each at or after the end of the one
before it. -/
def InOrder : (position : Nat) → List Edit → Prop
  | _, [] => True
  | position, edit :: rest =>
      position ≤ edit.start ∧ edit.start ≤ edit.stop ∧ InOrder edit.stop rest

theorem InOrder.le_start {position : Nat} {edits : List Edit}
    (inOrder : InOrder position edits) :
    ∀ edit ∈ edits, position ≤ edit.start := by
  induction edits generalizing position with
  | nil => nofun
  | cons first rest ih =>
      obtain ⟨after, range, others⟩ := inOrder
      rw [List.forall_mem_cons]
      refine ⟨after, fun edit member => ?_⟩
      have later := ih others edit member
      omega

/-- Edits in order are disjoint. -/
theorem InOrder.pairwise {position : Nat} {edits : List Edit}
    (inOrder : InOrder position edits) :
    edits.Pairwise fun left right => left.stop ≤ right.start := by
  induction edits generalizing position with
  | nil => exact .nil
  | cons first rest ih =>
      obtain ⟨_, _, others⟩ := inOrder
      exact .cons others.le_start (ih others)

theorem inOrder_keepFrom {edits : List Edit}
    (ranges : ∀ edit ∈ edits, edit.start ≤ edit.stop) (position : Nat) :
    InOrder position (keepFrom position edits) := by
  induction edits generalizing position with
  | nil => trivial
  | cons first rest ih =>
      obtain ⟨range, others⟩ := List.forall_mem_cons.mp ranges
      rw [keepFrom]
      split
      · next after => exact ⟨after, range, ih others first.stop⟩
      · exact ih others position

/-! ## Edits that are dropped -/

theorem considered_trans (left middle right : Edit)
    (first : considered left middle = true)
    (second : considered middle right = true) :
    considered left right = true := by
  simp only [considered, Bool.or_eq_true, Bool.and_eq_true,
    decide_eq_true_eq] at first second ⊢
  omega

theorem considered_total (left right : Edit) :
    (considered left right || considered right left) = true := by
  simp only [considered, Bool.or_eq_true, Bool.and_eq_true, decide_eq_true_eq]
  omega

theorem start_le_of_considered {left right : Edit}
    (first : considered left right = true) : left.start ≤ right.start := by
  simp only [considered, Bool.or_eq_true, Bool.and_eq_true,
    decide_eq_true_eq] at first
  omega

/-- The start of an edit lies in the range of another. -/
def StartsInside (edit other : Edit) : Prop :=
  other.start ≤ edit.start ∧ edit.start < other.stop

/-- Of edits in the order in which they are considered, those that are not kept
start before the position or inside a kept edit that is considered earlier. -/
theorem exists_dropped_from {edits : List Edit}
    (sorted : edits.Pairwise fun left right => considered left right = true)
    (position : Nat) :
    ∃ dropped, edits.Perm (keepFrom position edits ++ dropped) ∧
      ∀ edit ∈ dropped, edit.start < position ∨
        ∃ kept ∈ keepFrom position edits, edit.StartsInside kept ∧
          considered kept edit = true := by
  induction edits generalizing position with
  | nil => exact ⟨[], .nil, nofun⟩
  | cons first rest ih =>
      obtain ⟨later, sorted⟩ := List.pairwise_cons.mp sorted
      rw [keepFrom]
      split
      · obtain ⟨dropped, parts, inside⟩ := ih sorted first.stop
        refine ⟨dropped, parts.cons first, fun edit member => .inr ?_⟩
        rcases inside edit member with before | ⟨kept, known, starts⟩
        · have given : edit ∈ rest :=
            parts.mem_iff.mpr (List.mem_append_right _ member)
          have earlier := later edit given
          exact ⟨first, List.mem_cons_self,
            ⟨start_le_of_considered earlier, before⟩, earlier⟩
        · exact ⟨kept, List.mem_cons_of_mem _ known, starts⟩
      · next before =>
        obtain ⟨dropped, parts, inside⟩ := ih sorted position
        refine ⟨first :: dropped, (parts.cons first).trans ?_, ?_⟩
        · exact List.perm_middle.symm
        · rw [List.forall_mem_cons]
          exact ⟨.inl (Nat.lt_of_not_le before), inside⟩

/-- Every edit of a list is kept, or starts inside a kept one that is considered
earlier. -/
theorem exists_dropped_later (edits : List Edit) :
    ∃ dropped, edits.Perm (keep edits ++ dropped) ∧
      ∀ edit ∈ dropped, ∃ kept ∈ keep edits, edit.StartsInside kept ∧
        considered kept edit = true := by
  have sorted := List.pairwise_mergeSort considered_trans considered_total edits
  obtain ⟨dropped, parts, inside⟩ := exists_dropped_from sorted 0
  refine ⟨dropped, (List.mergeSort_perm edits considered).symm.trans parts, ?_⟩
  intro edit member
  exact (inside edit member).resolve_left (Nat.not_lt_zero _)

/-- Every edit of a list is kept, or starts inside a kept one. -/
theorem exists_dropped (edits : List Edit) :
    ∃ dropped, edits.Perm (keep edits ++ dropped) ∧
      ∀ edit ∈ dropped, ∃ kept ∈ keep edits, edit.StartsInside kept := by
  obtain ⟨dropped, parts, inside⟩ := exists_dropped_later edits
  refine ⟨dropped, parts, fun edit member => ?_⟩
  obtain ⟨kept, known, starts, _⟩ := inside edit member
  exact ⟨kept, known, starts⟩

theorem inOrder_keep {edits : List Edit}
    (ranges : ∀ edit ∈ edits, edit.start ≤ edit.stop) :
    InOrder 0 (keep edits) := by
  apply inOrder_keepFrom
  intro edit member
  exact ranges edit (List.mem_mergeSort.mp member)

/-! ## Replacing all ranges at once -/

/-- Edits take a source to a result: each range gives way to its replacement,
and the bytes before, between and after the ranges stay.  The source starts at a
position. -/
inductive Replaces : (position : Nat) → List Edit → (source result : List UInt8) →
    Prop where
  | done {position : Nat} {rest : List UInt8} : Replaces position [] rest rest
  | edit {position : Nat} {edit : Edit} {edits : List Edit}
      {gap old rest result : List UInt8}
      (start : edit.start = position + gap.length)
      (stop : edit.stop = edit.start + old.length)
      (others : Replaces edit.stop edits rest result) :
      Replaces position (edit :: edits) (gap ++ (old ++ rest))
        (gap ++ (encode edit.replacement ++ result))

/-- A list from a position on falls into what stands before a range, the range
and the rest. -/
theorem drop_eq_append {source : List UInt8} {position start stop : Nat}
    (after : position ≤ start) (range : start ≤ stop) :
    source.drop position =
      (source.drop position).take (start - position) ++
        ((source.drop start).take (stop - start) ++ source.drop stop) := by
  have second : source.drop start =
      (source.drop start).take (stop - start) ++ source.drop stop := by
    conv => lhs; rw [← List.take_append_drop (stop - start) (source.drop start)]
    rw [List.drop_drop, Nat.add_sub_cancel' range]
  rw [← second]
  conv => lhs; rw [← List.take_append_drop (start - position) (source.drop position)]
  rw [List.drop_drop, Nat.add_sub_cancel' after]

theorem apply_append {edit : Edit} {source result : List UInt8}
    (range : edit.start ≤ edit.stop) (inside : edit.stop ≤ source.length) :
    edit.apply (source.take edit.stop ++ result) =
      source.take edit.start ++ (encode edit.replacement ++ result) := by
  have size : (source.take edit.stop).length = edit.stop := by simp [inside]
  have before : (source.take edit.stop ++ result).take edit.start =
      source.take edit.start := by
    rw [List.take_append_of_le_length (size.symm ▸ range), List.take_take,
      Nat.min_eq_left range]
  have after : (source.take edit.stop ++ result).drop edit.stop = result :=
    List.drop_left' size
  rw [apply, Nat.max_eq_right range, before, after, List.append_assoc]

/-- Applying edits in order from the last to the first replaces their ranges at
once, and leaves what stands before them. -/
theorem exists_replaces {source : List UInt8} {position : Nat}
    {edits : List Edit} (inOrder : InOrder position edits)
    (bounded : ∀ edit ∈ edits, edit.stop ≤ source.length) :
    ∃ result, applyAll edits source = source.take position ++ result ∧
      Replaces position edits (source.drop position) result := by
  induction edits generalizing position with
  | nil =>
      exact ⟨source.drop position, (List.take_append_drop ..).symm, .done⟩
  | cons first rest ih =>
      obtain ⟨after, range, inOrder⟩ := inOrder
      obtain ⟨inside, bounded⟩ := List.forall_mem_cons.mp bounded
      obtain ⟨result, applied, replaces⟩ := ih inOrder bounded
      have gapSize : ((source.drop position).take
          (first.start - position)).length = first.start - position := by
        rw [List.length_take, List.length_drop]
        omega
      have oldSize : ((source.drop first.start).take
          (first.stop - first.start)).length = first.stop - first.start := by
        rw [List.length_take, List.length_drop]
        omega
      refine ⟨(source.drop position).take (first.start - position) ++
        (encode first.replacement ++ result), ?_, ?_⟩
      · calc applyAll (first :: rest) source
            = first.apply (source.take first.stop ++ result) := by
              rw [← applied]
              rfl
          _ = source.take first.start ++
                (encode first.replacement ++ result) :=
              apply_append range inside
          _ = source.take position ++ ((source.drop position).take
                (first.start - position) ++
                (encode first.replacement ++ result)) := by
              rw [← List.append_assoc (source.take position), ← List.take_add,
                Nat.add_sub_cancel' after]
      · have start : first.start = position + ((source.drop position).take
            (first.start - position)).length := by omega
        have stop : first.stop = first.start + ((source.drop first.start).take
            (first.stop - first.start)).length := by omega
        have replaced := Replaces.edit start stop replaces
        rwa [← drop_eq_append after range] at replaced

theorem replaces_applyAll {source : List UInt8} {edits : List Edit}
    (inOrder : InOrder 0 edits)
    (bounded : ∀ edit ∈ edits, edit.stop ≤ source.length) :
    Replaces 0 edits source (applyAll edits source) := by
  obtain ⟨result, applied, replaces⟩ := exists_replaces inOrder bounded
  rw [applied]
  exact replaces

/-- If all ranges start and end at boundaries of characters, the result is again
the bytes of a text. -/
theorem Replaces.exists_text {position : Nat} {edits : List Edit}
    {source result before : List UInt8}
    (replaces : Replaces position edits source result)
    (size : before.length = position)
    (here : IsBoundary (before ++ source) position)
    (boundaries : ∀ edit ∈ edits, IsBoundary (before ++ source) edit.start ∧
      IsBoundary (before ++ source) edit.stop) :
    ∃ text, result = encode text := by
  induction replaces generalizing before with
  | done =>
      obtain ⟨text, rest⟩ := here.exists_after
      rw [List.drop_left' size] at rest
      exact ⟨text, rest⟩
  | @edit position edit edits gap old rest result start stop others ih =>
      obtain ⟨⟨atStart, atStop⟩, boundaries⟩ := List.forall_mem_cons.mp boundaries
      have split : before ++ (gap ++ (old ++ rest)) =
          (before ++ (gap ++ old)) ++ rest := by
        simp only [List.append_assoc]
      obtain ⟨text, gapText⟩ := here.exists_between atStart
      have grown : (before ++ (gap ++ old)).length = edit.stop := by
        simp only [List.length_append]
        omega
      rw [split] at atStop boundaries
      obtain ⟨last, resultText⟩ := ih grown atStop boundaries
      rw [List.drop_left' size, List.take_left' (by omega)] at gapText
      refine ⟨text ++ (edit.replacement ++ last), ?_⟩
      rw [Text.Utf8.encode_append, Text.Utf8.encode_append, gapText, resultText]

end ExportAudit.Edit
