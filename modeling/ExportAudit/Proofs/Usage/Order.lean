import Mathlib.Data.List.Perm.Subperm
import ExportAudit.Usage

/-!
# The order of usages

A usage is at most another if it adds nothing to it.  The join of usages is at
least each of them.

A usage stays within given facts if it says that everything is used only where
that is granted, and names only granted names.  Joining usages stays within
common facts.

Within a finite vocabulary of names a usage has a rank: the number of its names,
and one more than the size of the vocabulary for `all`.  Joining a usage with
another either leaves it as it is or raises its rank.
-/

namespace ExportAudit

universe u

namespace OrderedSet

variable {α : Type u} [LT α] [StrictOrder α]

/-- Elements in ascending order are all different. -/
theorem elements_nodup (set : OrderedSet α) : set.elements.Nodup := by
  apply set.ascending.imp
  intro left right before equal
  subst equal
  exact StrictOrder.asymm before before

theorem size_le_of_forall_mem {left right : OrderedSet α}
    (contained : ∀ value ∈ left, value ∈ right) : left.size ≤ right.size :=
  (List.Nodup.subperm left.elements_nodup contained).length_le

/-- A set that is contained in another and is no smaller is the other. -/
theorem eq_of_forall_mem_of_size_le {left right : OrderedSet α}
    (contained : ∀ value ∈ left, value ∈ right)
    (large : right.size ≤ left.size) : left = right := by
  apply ext
  intro value
  have rearranged : left.elements.Perm right.elements :=
    (List.Nodup.subperm left.elements_nodup contained).perm_of_length_le large
  exact rearranged.mem_iff

end OrderedSet

namespace Usage

theorem union_eq_all {left right : Usage} :
    left.union right = .all ↔ left = .all ∨ right = .all := by
  cases left <;> cases right <;> simp [union]

private theorem mem_foldl_union {name : String} {usages : List Usage}
    {start : Usage} :
    name ∈ usages.foldl union start ↔
      name ∈ start ∨ ∃ usage ∈ usages, name ∈ usage := by
  induction usages generalizing start with
  | nil => simp
  | cons head rest ih => simp [ih, or_assoc]

private theorem foldl_union_eq_all {usages : List Usage} {start : Usage} :
    usages.foldl union start = .all ↔ start = .all ∨ .all ∈ usages := by
  induction usages generalizing start with
  | nil => simp
  | cons head rest ih =>
      rw [List.foldl_cons, ih, union_eq_all, List.mem_cons, or_assoc,
        eq_comm (a := Usage.all)]

@[simp] theorem mem_unionAll {name : String} {usages : List Usage} :
    name ∈ unionAll usages ↔ ∃ usage ∈ usages, name ∈ usage := by
  simp [unionAll, mem_foldl_union]

theorem unionAll_eq_all {usages : List Usage} :
    unionAll usages = .all ↔ .all ∈ usages := by
  simp [unionAll, foldl_union_eq_all, Usage.none]

/-! ## Usages that are at most others -/

instance : LE Usage := ⟨fun lower upper => upper.union lower = upper⟩

/-- A usage is at most another if that contains its names and is `all` where it
is. -/
theorem le_iff {lower upper : Usage} :
    lower ≤ upper ↔
      (lower = .all → upper = .all) ∧ ∀ name ∈ lower, name ∈ upper := by
  change upper.union lower = upper ↔ _
  constructor
  · intro joined
    constructor
    · intro all
      rw [← joined, union_eq_all]
      exact .inr all
    · intro name member
      rw [← joined, mem_union]
      exact .inr member
  · rintro ⟨whole, names⟩
    cases upper with
    | all => rfl
    | only upperNames =>
        cases lower with
        | all => cases whole rfl
        | only lowerNames =>
            have same : upperNames.union lowerNames = upperNames := by
              apply OrderedSet.ext
              intro name
              rw [OrderedSet.mem_union]
              exact ⟨fun either => either.elim id (names name), .inl⟩
            rw [union, same]

theorem le_refl (usage : Usage) : usage ≤ usage := by
  simp [le_iff]

theorem le_all (usage : Usage) : usage ≤ .all := by
  rw [le_iff]
  exact ⟨fun _ => rfl, fun name _ => mem_all name⟩

theorem le_trans {first second third : Usage} (lower : first ≤ second)
    (upper : second ≤ third) : first ≤ third := by
  rw [le_iff] at lower upper ⊢
  exact ⟨fun all => upper.1 (lower.1 all),
    fun name member => upper.2 name (lower.2 name member)⟩

theorem le_antisymm {left right : Usage} (below : left ≤ right)
    (above : right ≤ left) : left = right := by
  rw [le_iff] at below above
  cases left with
  | all => exact (below.1 rfl).symm
  | only leftNames =>
      cases right with
      | all => exact above.1 rfl
      | only rightNames =>
          have same : leftNames = rightNames := by
            apply OrderedSet.ext
            intro name
            exact ⟨below.2 name, above.2 name⟩
          rw [same]

theorem le_union_left (left right : Usage) : left ≤ left.union right := by
  rw [le_iff]
  exact ⟨fun all => union_eq_all.mpr (.inl all),
    fun _ member => mem_union.mpr (.inl member)⟩

theorem le_unionAll {usage : Usage} {usages : List Usage}
    (member : usage ∈ usages) : usage ≤ unionAll usages := by
  rw [le_iff]
  constructor
  · intro all
    rw [unionAll_eq_all, ← all]
    exact member
  · intro name named
    exact mem_unionAll.mpr ⟨usage, member, named⟩

/-! ## Usages within given facts -/

/-- A usage says that everything is used only if `all` holds, and otherwise
names only names for which `named` holds. -/
def Within (all : Prop) (named : String → Prop) : Usage → Prop
  | .all => all
  | .only names => ∀ name ∈ names, named name

variable {all : Prop} {named : String → Prop}

theorem within_none : Usage.none.Within all named := by
  simp [Usage.none, Within]

theorem within_ofList {names : List String} :
    (ofList names).Within all named ↔ ∀ name ∈ names, named name := by
  simp [ofList, Within]

theorem Within.union {left right : Usage} (leftWithin : left.Within all named)
    (rightWithin : right.Within all named) :
    (left.union right).Within all named := by
  cases left with
  | all => exact leftWithin
  | only leftNames =>
      cases right with
      | all => exact rightWithin
      | only rightNames =>
          intro name member
          rcases OrderedSet.mem_union.mp member with inLeft | inRight
          · exact leftWithin name inLeft
          · exact rightWithin name inRight

private theorem Within.foldl_union {usages : List Usage} {start : Usage}
    (startWithin : start.Within all named)
    (each : ∀ usage ∈ usages, usage.Within all named) :
    (usages.foldl Usage.union start).Within all named := by
  induction usages generalizing start with
  | nil => exact startWithin
  | cons head rest ih =>
      apply ih
      · exact startWithin.union (each head (by simp))
      · intro usage member
        exact each usage (by simp [member])

theorem within_unionAll {usages : List Usage}
    (each : ∀ usage ∈ usages, usage.Within all named) :
    (unionAll usages).Within all named :=
  within_none.foldl_union each

/-- What is known of the names in a usage that stays within given facts. -/
theorem Within.of_mem {usage : Usage} {name : String}
    (within : usage.Within all named) (member : name ∈ usage) :
    usage = .all ∧ all ∨ named name := by
  cases usage with
  | all => exact .inl ⟨rfl, within⟩
  | only names => exact .inr (within name member)

/-! ## Ranks within a vocabulary -/

/-- How far a usage has grown within a finite vocabulary. -/
def rank (vocabulary : OrderedSet String) : Usage → Nat
  | .all => vocabulary.size + 1
  | .only names => names.size

/-- A usage names only names of a vocabulary, or says that all are used. -/
abbrev InVocabulary (vocabulary : OrderedSet String) (usage : Usage) : Prop :=
  usage.Within True (· ∈ vocabulary)

theorem rank_le {vocabulary : OrderedSet String} {usage : Usage}
    (within : usage.InVocabulary vocabulary) :
    usage.rank vocabulary ≤ vocabulary.size + 1 := by
  cases usage with
  | all => exact Nat.le_refl _
  | only names =>
      have small : names.size ≤ vocabulary.size :=
        OrderedSet.size_le_of_forall_mem within
      simp only [rank]
      omega

/-- Joining a usage with another changes nothing or raises the rank. -/
theorem union_eq_or_rank_lt {vocabulary : OrderedSet String} {usage : Usage}
    (added : Usage) (within : usage.InVocabulary vocabulary) :
    usage.union added = usage ∨
      usage.rank vocabulary < (usage.union added).rank vocabulary := by
  cases usage with
  | all => exact .inl rfl
  | only names =>
      cases added with
      | all =>
          right
          have small : names.size ≤ vocabulary.size :=
            OrderedSet.size_le_of_forall_mem within
          simp only [union, rank]
          omega
      | only others =>
          have contained : ∀ name ∈ names, name ∈ names.union others := by
            intro name member
            exact OrderedSet.mem_union.mpr (.inl member)
          by_cases larger : names.size < (names.union others).size
          · exact .inr larger
          · left
            have same : names = names.union others :=
              OrderedSet.eq_of_forall_mem_of_size_le contained
                (Nat.le_of_not_lt larger)
            rw [union, ← same]

end Usage

end ExportAudit
