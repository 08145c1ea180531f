import Mathlib.Data.List.Forall2

/-!
# How failures propagate

A computation in steps fails by the first of its steps that fails.  The lemmas
here say so for sequences of two steps, for a step repeated over a list, and
for a fold whose outcome at each element does not depend on what was reached
before.  Some failures are fatal and others are not, so what is said of failing
is said for the failures that a predicate selects.
-/

namespace ExportAudit

universe u v w

variable {ε : Type u} {α β : Type v}

/-- A computation fails by one of the fatal failures. -/
def FailsBy {α : Type w} (fatal : ε → Prop) (result : Except ε α) : Prop :=
  ∃ failure, result = .error failure ∧ fatal failure

/-- A computation fails. -/
abbrev Fails {α : Type w} (result : Except ε α) : Prop :=
  FailsBy (fun _ => True) result

/-! ## Single steps -/

@[simp] theorem not_failsBy_ok (fatal : ε → Prop) (value : α) :
    ¬ FailsBy fatal (.ok value : Except ε α) := by
  rintro ⟨failure, same, _⟩
  cases same

@[simp] theorem not_failsBy_pure (fatal : ε → Prop) (value : α) :
    ¬ FailsBy fatal (pure value : Except ε α) :=
  not_failsBy_ok fatal value

@[simp] theorem failsBy_error (fatal : ε → Prop) (failure : ε) :
    FailsBy fatal (.error failure : Except ε α) ↔ fatal failure := by
  constructor
  · rintro ⟨_, same, known⟩
    cases same
    exact known
  · intro known
    exact ⟨failure, rfl, known⟩

theorem exists_ok_iff {result : Except ε α} :
    (∃ value, result = .ok value) ↔ ¬ Fails result := by
  cases result <;> simp

/-! ## Sequences -/

@[simp] theorem ok_bind (value : α) (next : α → Except ε β) :
    (Except.ok value >>= next) = next value := rfl

@[simp] theorem error_bind (failure : ε) (next : α → Except ε β) :
    (Except.error failure >>= next) = .error failure := rfl

theorem bind_eq_ok {result : Except ε α} {next : α → Except ε β} {value : β} :
    (result >>= next) = .ok value ↔
      ∃ between, result = .ok between ∧ next between = .ok value := by
  cases result <;> simp

theorem map_eq_ok {change : α → β} {result : Except ε α} {value : β} :
    change <$> result = .ok value ↔
      ∃ between, result = .ok between ∧ change between = value := by
  cases result <;> simp [Functor.map, Except.map]

theorem failsBy_bind {fatal : ε → Prop} {result : Except ε α}
    {next : α → Except ε β} :
    FailsBy fatal (result >>= next) ↔
      FailsBy fatal result ∨
        ∃ value, result = .ok value ∧ FailsBy fatal (next value) := by
  cases result <;> simp

/-- Where the failing of the second step does not depend on the first, the
sequence fails if either step does. -/
theorem fails_bind_iff_or {stops : Prop} {result : Except ε α}
    {next : α → Except ε β} (rest : ∀ value, Fails (next value) ↔ stops) :
    Fails (result >>= next) ↔ Fails result ∨ stops := by
  cases result with
  | error failure => simp
  | ok value => simp [rest]

@[simp] theorem failsBy_map {fatal : ε → Prop} {result : Except ε α}
    {change : α → β} :
    FailsBy fatal (change <$> result) ↔ FailsBy fatal result := by
  cases result <;> simp [Functor.map, Except.map]

theorem failsBy_mapError {φ : Type w} {fatal : φ → Prop} {change : ε → φ}
    {result : Except ε α} :
    FailsBy fatal (result.mapError change) ↔
      FailsBy (fun failure => fatal (change failure)) result := by
  cases result <;> simp [Except.mapError]

theorem mapError_eq_ok {φ : Type w} {change : ε → φ} {result : Except ε α}
    {value : α} :
    result.mapError change = .ok value ↔ result = .ok value := by
  cases result <;> simp [Except.mapError]

theorem fails_optionMapM {step : α → Except ε β} {value : Option α} :
    Fails (value.mapM step) ↔
      ∃ found, value = some found ∧ Fails (step found) := by
  cases value with
  | none => simp
  | some found => simp

/-- Where a step can only have one result, so has it on an optional value. -/
theorem eq_map_of_optionMapM {step : α → Except ε β} {result : α → β}
    (only : ∀ value other, step value = .ok other → other = result value)
    {value : Option α} {found : Option β} (mapped : value.mapM step = .ok found) :
    found = value.map result := by
  cases value with
  | none =>
      cases mapped
      rfl
  | some value =>
      rw [Option.mapM_some, map_eq_ok] at mapped
      obtain ⟨other, stepped, rfl⟩ := mapped
      rw [only value other stepped, Option.map_some]

/-! ## Steps repeated over a list -/

/-- A step repeated over a list fails if it fails at some element. -/
theorem fails_mapM {step : α → Except ε β} {values : List α} :
    Fails (values.mapM step) ↔ ∃ value ∈ values, Fails (step value) := by
  induction values with
  | nil => simp
  | cons head rest ih =>
      rw [List.mapM_cons, List.exists_mem_cons_iff, ← ih]
      unfold Fails
      simp only [failsBy_bind, not_failsBy_pure, and_false, exists_false,
        or_false]
      cases step head with
      | ok value => simp
      | error failure => simp

/-- A step repeated over a list fails as it fails at some element. -/
theorem exists_failsBy_of_mapM {fatal : ε → Prop} {step : α → Except ε β}
    {values : List α} (failed : FailsBy fatal (values.mapM step)) :
    ∃ value ∈ values, FailsBy fatal (step value) := by
  induction values with
  | nil => exact absurd failed (not_failsBy_pure _ _)
  | cons head rest ih =>
      rw [List.mapM_cons, failsBy_bind] at failed
      obtain first | ⟨result, _, later⟩ := failed
      · exact ⟨head, List.mem_cons_self .., first⟩
      · rw [failsBy_bind] at later
        obtain others | ⟨results, _, done⟩ := later
        · obtain ⟨value, member, fails⟩ := ih others
          exact ⟨value, List.mem_cons_of_mem _ member, fails⟩
        · exact absurd done (not_failsBy_pure _ _)

/-- The results of a step repeated over a list are its results at the
elements. -/
theorem mapM_eq_ok {step : α → Except ε β} {values : List α}
    {results : List β} :
    values.mapM step = .ok results ↔
      List.Forall₂ (fun value result => step value = .ok result) values
        results := by
  induction values generalizing results with
  | nil =>
      rw [List.mapM_nil, List.forall₂_nil_left_iff]
      constructor
      · intro same
        cases same
        rfl
      · intro same
        cases same
        rfl
  | cons head rest ih =>
      rw [List.mapM_cons, List.forall₂_cons_left_iff]
      simp only [bind_eq_ok]
      constructor
      · rintro ⟨first, stepped, others, mapped, same⟩
        cases same
        exact ⟨first, others, stepped, ih.mp mapped, rfl⟩
      · rintro ⟨first, others, stepped, related, rfl⟩
        exact ⟨first, stepped, others, ih.mpr related, rfl⟩

/-- The results of a partial function on a list are its results at the
elements. -/
theorem optionMapM_eq_some {step : α → Option β} {values : List α}
    {results : List β} :
    values.mapM step = some results ↔
      List.Forall₂ (fun value result => step value = some result) values
        results := by
  induction values generalizing results with
  | nil =>
      rw [List.mapM_nil, List.forall₂_nil_left_iff]
      exact ⟨fun same => (Option.some.inj same).symm, fun same => same ▸ rfl⟩
  | cons head rest ih =>
      rw [List.mapM_cons, List.forall₂_cons_left_iff]
      simp only [Option.bind_eq_bind, Option.bind_eq_some_iff]
      constructor
      · intro mapped
        obtain ⟨first, stepped, others, mapped, same⟩ := mapped
        cases same
        exact ⟨first, others, stepped, ih.mp mapped, rfl⟩
      · intro related
        obtain ⟨first, others, stepped, related, rfl⟩ := related
        exact ⟨first, stepped, others, ih.mpr related, rfl⟩

/-- What is related to a list element by element has a related element for each
of the list. -/
theorem exists_of_forall₂_of_mem {related : α → β → Prop} {values : List α}
    {results : List β} {value : α}
    (pairs : List.Forall₂ related values results) (member : value ∈ values) :
    ∃ result ∈ results, related value result := by
  induction pairs with
  | nil => cases member
  | cons first _ ih =>
      rcases List.mem_cons.mp member with rfl | later
      · exact ⟨_, List.mem_cons_self .., first⟩
      · obtain ⟨result, listed, pair⟩ := ih later
        exact ⟨result, List.mem_cons_of_mem _ listed, pair⟩

/-- If one failure only is possible and some element fails, the repeated step
fails by it. -/
theorem mapM_eq_error {step : α → Except ε β} {values : List α} {failure : ε}
    (only : ∀ value ∈ values, ∀ other, step value = .error other →
      other = failure)
    (failing : ∃ value ∈ values, Fails (step value)) :
    values.mapM step = .error failure := by
  induction values with
  | nil =>
      obtain ⟨value, member, _⟩ := failing
      cases member
  | cons head rest ih =>
      rw [List.forall_mem_cons] at only
      rw [List.exists_mem_cons_iff] at failing
      rw [List.mapM_cons]
      cases first : step head with
      | error other =>
          rw [only.1 other first, error_bind]
      | ok value =>
          have later : ∃ value ∈ rest, Fails (step value) := by
            rcases failing with here | later
            · rw [first] at here
              exact absurd here (not_failsBy_ok _ _)
            · exact later
          rw [ok_bind, ih only.2 later, error_bind]

theorem mapM_eq_ok_map {step : α → Except ε β} {result : α → β}
    {values : List α}
    (each : ∀ value ∈ values, step value = .ok (result value)) :
    values.mapM step = .ok (values.map result) := by
  rw [mapM_eq_ok, List.forall₂_map_right_iff, List.forall₂_same]
  exact each

/-- Where a step can only have one result, so has its repetition. -/
theorem eq_map_of_mapM {step : α → Except ε β} {result : α → β}
    (only : ∀ value other, step value = .ok other → other = result value)
    {values : List α} {found : List β} (mapped : values.mapM step = .ok found) :
    found = values.map result := by
  have related := mapM_eq_ok.mp mapped
  induction related with
  | nil => rfl
  | cons stepped _ ih =>
      rw [List.map_cons, ← only _ _ stepped, ← ih (mapM_eq_ok.mpr ‹_›)]

/-- A step repeated for its effect alone is repeated for its results, which are
dropped. -/
theorem forM_eq_map_mapM {step : α → Except ε PUnit.{v + 1}}
    {values : List α} :
    values.forM step = (fun _ => PUnit.unit) <$> values.mapM step := by
  induction values with
  | nil => rfl
  | cons head rest ih =>
      rw [List.forM_eq_forM] at ih
      rw [List.forM_eq_forM, List.forM_cons, List.mapM_cons, map_bind, ih]
      apply bind_congr
      intro _
      rw [map_bind]
      rfl

theorem fails_forM {step : α → Except ε PUnit.{v + 1}} {values : List α} :
    Fails (values.forM step) ↔ ∃ value ∈ values, Fails (step value) := by
  rw [forM_eq_map_mapM, ← fails_mapM]
  exact failsBy_map

/-! ## Folds with outcomes that do not depend on what was reached -/

section Fold

variable {step : β → α → Except ε β} {passes : α → Prop}

/-- A fold goes through if every element passes. -/
theorem exists_foldlM_eq_ok
    (passes_iff : ∀ reached value,
      (∃ next, step reached value = .ok next) ↔ passes value)
    {values : List α} {start : β} :
    (∃ final, values.foldlM step start = .ok final) ↔
      ∀ value ∈ values, passes value := by
  induction values generalizing start with
  | nil => simp [pure, Except.pure]
  | cons head rest ih =>
      rw [List.forall_mem_cons, ← passes_iff start head]
      constructor
      · rintro ⟨final, folded⟩
        rw [List.foldlM_cons, bind_eq_ok] at folded
        obtain ⟨next, stepped, folded⟩ := folded
        exact ⟨⟨next, stepped⟩, ih.mp ⟨final, folded⟩⟩
      · rintro ⟨⟨next, stepped⟩, others⟩
        obtain ⟨final, folded⟩ := (@ih next).mpr others
        exact ⟨final, by rw [List.foldlM_cons, stepped, ok_bind, folded]⟩

/-- A fold fails fatally at an element before which all elements pass. -/
theorem failsBy_foldlM {fatal : ε → Prop} {stops : α → Prop}
    (passes_iff : ∀ reached value,
      (∃ next, step reached value = .ok next) ↔ passes value)
    (stops_iff : ∀ reached value,
      FailsBy fatal (step reached value) ↔ stops value)
    {values : List α} {start : β} :
    FailsBy fatal (values.foldlM step start) ↔
      ∃ before value after, values = before ++ value :: after ∧
        (∀ earlier ∈ before, passes earlier) ∧ stops value := by
  induction values generalizing start with
  | nil => simp
  | cons head rest ih =>
      rw [List.foldlM_cons, failsBy_bind, stops_iff]
      constructor
      · rintro (stopped | ⟨next, stepped, failed⟩)
        · exact ⟨[], head, rest, rfl, by simp, stopped⟩
        · obtain ⟨before, value, after, rfl, passed, stopped⟩ := ih.mp failed
          refine ⟨head :: before, value, after, rfl, ?_, stopped⟩
          rw [List.forall_mem_cons]
          exact ⟨(passes_iff start head).mp ⟨next, stepped⟩, passed⟩
      · rintro ⟨before, value, after, split, passed, stopped⟩
        cases before with
        | nil =>
            cases split
            exact .inl stopped
        | cons first others =>
            cases split
            rw [List.forall_mem_cons] at passed
            obtain ⟨next, stepped⟩ := (passes_iff start head).mpr passed.1
            exact .inr ⟨next, stepped,
              ih.mpr ⟨others, value, after, rfl, passed.2, stopped⟩⟩

end Fold

end ExportAudit
