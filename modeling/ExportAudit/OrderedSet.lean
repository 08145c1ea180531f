import ExportAudit.StrictOrder

/-!
# Finite sets in ascending order

A finite set over a strict total order is kept as its elements in strictly ascending
order.  Every set then has one representation, so equality of sets is equality
of values and the elements are always listed in order.

`mem_insert`, `mem_union` and `mem_ofList` describe the operations through
membership; `ext` turns membership back into equality.
-/

namespace ExportAudit

universe u

/-- A finite set, represented by its elements in strictly ascending order. -/
structure OrderedSet (α : Type u) [LT α] where
  elements : List α
  ascending : elements.Pairwise (· < ·)

namespace OrderedSet

variable {α : Type u} [LT α]

/-- Insert a value into an ascending list, keeping it ascending. -/
def place [DecidableLT α] [DecidableEq α] (value : α) : List α → List α
  | [] => [value]
  | head :: rest =>
      if value < head then value :: head :: rest
      else if value = head then head :: rest
      else head :: place value rest

theorem mem_place [DecidableLT α] [DecidableEq α] {value other : α}
    {values : List α} :
    other ∈ place value values ↔ other = value ∨ other ∈ values := by
  induction values with
  | nil => simp [place]
  | cons head rest ih =>
      unfold place
      split
      · simp
      · split
        · next equal => subst equal; simp
        · simp [ih]; grind

theorem place_ascending [DecidableLT α] [DecidableEq α] [StrictOrder α]
    (value : α) {values : List α} (ascending : values.Pairwise (· < ·)) :
    (place value values).Pairwise (· < ·) := by
  induction values with
  | nil => simp [place]
  | cons head rest ih =>
      have ⟨above, tail⟩ := List.pairwise_cons.mp ascending
      unfold place
      split
      · next before =>
        refine List.pairwise_cons.mpr ⟨?_, ascending⟩
        intro other member
        cases List.mem_cons.mp member with
        | inl equal => exact equal ▸ before
        | inr later => exact StrictOrder.trans before (above other later)
      · next notBefore =>
        split
        · exact ascending
        · next different =>
          refine List.pairwise_cons.mpr ⟨?_, ih tail⟩
          intro other member
          cases mem_place.mp member with
          | inl equal =>
              subst equal
              by_cases after : head < other
              · exact after
              · exact absurd (StrictOrder.connected notBefore after) different
          | inr later => exact above other later

/-- The set without elements. -/
def empty : OrderedSet α := ⟨[], .nil⟩

instance : EmptyCollection (OrderedSet α) := ⟨empty⟩

instance : Membership α (OrderedSet α) := ⟨fun set value => value ∈ set.elements⟩

instance [DecidableEq α] (value : α) (set : OrderedSet α) :
    Decidable (value ∈ set) :=
  inferInstanceAs (Decidable (value ∈ set.elements))

instance [DecidableEq α] : DecidableEq (OrderedSet α) := fun left right =>
  if equal : left.elements = right.elements then
    .isTrue (by cases left; cases right; simp_all)
  else
    .isFalse (fun same => equal (same ▸ rfl))

/-- How many elements the set has. -/
def size (set : OrderedSet α) : Nat := set.elements.length

variable [DecidableLT α] [DecidableEq α] [StrictOrder α]

/-- The set with one more element. -/
def insert (value : α) (set : OrderedSet α) : OrderedSet α :=
  ⟨place value set.elements, place_ascending value set.ascending⟩

/-- The set of the values of a list. -/
def ofList (values : List α) : OrderedSet α :=
  values.foldl (fun set value => set.insert value) empty

/-- The elements of either set. -/
def union (left right : OrderedSet α) : OrderedSet α :=
  right.elements.foldl (fun set value => set.insert value) left

/-- The set without one value. -/
def erase (set : OrderedSet α) (value : α) : OrderedSet α :=
  ⟨set.elements.filter (· != value), set.ascending.filter _⟩

omit [DecidableLT α] [DecidableEq α] [StrictOrder α] in
theorem mem_def {value : α} {set : OrderedSet α} :
    value ∈ set ↔ value ∈ set.elements := .rfl

omit [DecidableLT α] [DecidableEq α] [StrictOrder α] in
@[simp] theorem not_mem_empty (value : α) : ¬ value ∈ (empty : OrderedSet α) := by
  simp [mem_def, empty]

@[simp] theorem mem_insert {value other : α} {set : OrderedSet α} :
    other ∈ set.insert value ↔ other = value ∨ other ∈ set := by
  simp [mem_def, insert, mem_place]

@[simp] theorem mem_foldl_insert {value : α} {values : List α}
    {set : OrderedSet α} :
    value ∈ values.foldl (fun set value => set.insert value) set ↔
      value ∈ set ∨ value ∈ values := by
  induction values generalizing set with
  | nil => simp
  | cons head rest ih => simp [ih]; grind

@[simp] theorem mem_ofList {value : α} {values : List α} :
    value ∈ ofList values ↔ value ∈ values := by
  simp [ofList]

@[simp] theorem mem_union {value : α} {left right : OrderedSet α} :
    value ∈ left.union right ↔ value ∈ left ∨ value ∈ right := by
  unfold union
  rw [mem_foldl_insert]
  rfl

omit [DecidableLT α] [StrictOrder α] in
@[simp] theorem mem_erase {value other : α} {set : OrderedSet α} :
    other ∈ set.erase value ↔ other ∈ set ∧ other ≠ value := by
  simp [mem_def, erase]

omit [DecidableLT α] [DecidableEq α] in
/-- Ascending lists with the same members are the same list. -/
theorem elements_eq_of_mem_iff {left right : List α}
    (leftAscending : left.Pairwise (· < ·))
    (rightAscending : right.Pairwise (· < ·))
    (same : ∀ value, value ∈ left ↔ value ∈ right) : left = right := by
  induction left generalizing right with
  | nil =>
      cases right with
      | nil => rfl
      | cons head rest => simpa using same head
  | cons first others ih =>
      cases right with
      | nil => simpa using same first
      | cons head rest =>
          have ⟨leftAbove, leftTail⟩ := List.pairwise_cons.mp leftAscending
          have ⟨rightAbove, rightTail⟩ := List.pairwise_cons.mp rightAscending
          have headsEqual : first = head := by
            have firstMember := (same first).mp (by simp)
            have headMember := (same head).mpr (by simp)
            cases List.mem_cons.mp firstMember with
            | inl equal => exact equal
            | inr later =>
                cases List.mem_cons.mp headMember with
                | inl equal => exact equal.symm
                | inr behind =>
                    exact absurd (leftAbove head behind)
                      (StrictOrder.asymm (rightAbove first later))
          subst headsEqual
          have tailsEqual : others = rest := by
            refine ih leftTail rightTail fun value => ?_
            have notLeft : value ∈ others → value ≠ first := by
              intro member equal
              subst equal
              exact StrictOrder.asymm (leftAbove value member)
                (leftAbove value member)
            have notRight : value ∈ rest → value ≠ first := by
              intro member equal
              subst equal
              exact StrictOrder.asymm (rightAbove value member)
                (rightAbove value member)
            have member := same value
            simp only [List.mem_cons] at member
            grind
          rw [tailsEqual]

omit [DecidableLT α] [DecidableEq α] in
/-- Sets with the same members are equal. -/
theorem ext {left right : OrderedSet α}
    (same : ∀ value, value ∈ left ↔ value ∈ right) : left = right := by
  cases left with
  | mk leftElements leftAscending =>
      cases right with
      | mk rightElements rightAscending =>
          simp only [mk.injEq]
          exact elements_eq_of_mem_iff leftAscending rightAscending same

end OrderedSet

end ExportAudit
