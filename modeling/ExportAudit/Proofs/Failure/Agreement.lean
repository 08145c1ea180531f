import ExportAudit.Proofs.Failure.Propagation

/-!
# Computations that agree

Two computations agree up to a relation if they fail by the same failure or give
related values.  Agreement passes through sequences and through a step repeated
over a list.
-/

namespace ExportAudit

universe u v w

variable {ε : Type u} {α β γ δ : Type v}

/-- Two computations fail by the same failure or give related values. -/
inductive Agree (related : α → β → Prop) :
    Except ε α → Except ε β → Prop where
  | failed (failure : ε) : Agree related (.error failure) (.error failure)
  | given {left : α} {right : β} (values : related left right) :
      Agree related (.ok left) (.ok right)

namespace Agree

/-- A computation agrees with itself. -/
theorem same (result : Except ε α) : Agree Eq result result := by
  cases result with
  | error failure => exact .failed failure
  | ok value => exact .given rfl

variable {related : α → β → Prop} {relatedNext : γ → δ → Prop}
  {left : Except ε α} {right : Except ε β}

theorem bind {leftNext : α → Except ε γ} {rightNext : β → Except ε δ}
    (first : Agree related left right)
    (next : ∀ leftValue rightValue, related leftValue rightValue →
      Agree relatedNext (leftNext leftValue) (rightNext rightValue)) :
    Agree relatedNext (left >>= leftNext) (right >>= rightNext) := by
  cases first with
  | failed failure => exact .failed failure
  | given values => exact next _ _ values

theorem map {leftChange : α → γ} {rightChange : β → δ}
    (first : Agree related left right)
    (change : ∀ leftValue rightValue, related leftValue rightValue →
      relatedNext (leftChange leftValue) (rightChange rightValue)) :
    Agree relatedNext (leftChange <$> left) (rightChange <$> right) := by
  cases first with
  | failed failure => exact .failed failure
  | given values => exact .given (change _ _ values)

/-- Steps that agree at every element of a list agree when they are repeated
over it. -/
theorem mapM {ι : Type w} {leftStep : ι → Except ε α}
    {rightStep : ι → Except ε β} {values : List ι}
    (each : ∀ value ∈ values,
      Agree related (leftStep value) (rightStep value)) :
    Agree (List.Forall₂ related) (values.mapM leftStep)
      (values.mapM rightStep) := by
  induction values with
  | nil => exact .given .nil
  | cons head rest ih =>
      rw [List.forall_mem_cons] at each
      rw [List.mapM_cons, List.mapM_cons]
      apply each.1.bind
      intro leftHead rightHead heads
      apply (ih each.2).bind
      intro leftRest rightRest rests
      exact .given (.cons heads rests)

/-- Computations that agree both fail, by the same failure, or both return. -/
theorem eq_error_or_eq_ok (agree : Agree related left right) :
    (∃ failure, left = .error failure ∧ right = .error failure) ∨
      ∃ leftValue rightValue, left = .ok leftValue ∧ right = .ok rightValue ∧
        related leftValue rightValue := by
  cases agree with
  | failed failure => exact .inl ⟨failure, rfl, rfl⟩
  | given values => exact .inr ⟨_, _, rfl, rfl, values⟩

end Agree

end ExportAudit
