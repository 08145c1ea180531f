import Mathlib.Algebra.GroupWithZero.Nat
import ExportAudit.Graph.UsageIndex
import ExportAudit.Proofs.Usage.Order

/-!
# Rounds of re-exports

A round lets every re-export pass on what is known to be used.  `Settles`
describes rounds that follow one another, without a limit on their number,
until one of them changes nothing.

Facts that hold of an index and that every re-export respects hold of the index
in which the rounds end.  Names come from a finite vocabulary, and every round
but the last raises the weight of the index, so rounds always end.
-/

namespace ExportAudit

variable {μ : Type}

/-- A re-export passes on only facts about its target if the usage of its source
stays within the facts about that. -/
def Reference.Respects (reference : Reference μ) (all : μ → Prop)
    (named : μ → String → Prop) : Prop :=
  ∀ usage : Usage,
    usage.Within (all reference.source) (named reference.source) →
    (reference.forwarded usage).Within (all reference.target)
      (named reference.target)

namespace UsageIndex

/-- Every usage of an index stays within given facts about its module. -/
def Within (index : UsageIndex μ) (all : μ → Prop)
    (named : μ → String → Prop) : Prop :=
  ∀ entry ∈ index, entry.2.Within (all entry.1) (named entry.1)

/-- The modules of an index. -/
def modules (index : UsageIndex μ) : List μ := index.map (·.1)

variable [DecidableEq μ] {all : μ → Prop} {named : μ → String → Prop}

/-! ## Entries of an index -/

theorem mem_of_find?_eq_some {index : UsageIndex μ} {target : μ} {usage : Usage}
    (found : Association.find? target index = some usage) :
    (target, usage) ∈ index := by
  induction index with
  | nil => simp [Association.find?] at found
  | cons entry rest ih =>
      unfold Association.find? at found
      split at found
      next equal =>
        cases found
        subst equal
        exact List.mem_cons_self
      next => exact List.mem_cons_of_mem _ (ih found)

theorem exists_find?_iff {index : UsageIndex μ} {target : μ} :
    (∃ usage, Association.find? target index = some usage) ↔
      target ∈ index.modules := by
  induction index with
  | nil => simp [Association.find?, modules]
  | cons entry rest ih =>
      unfold Association.find?
      split
      next equal => simp [modules, equal]
      next different =>
        rw [ih]
        simp [modules, Ne.symm different]

theorem usage_eq_of_find? {index : UsageIndex μ} {target : μ} {usage : Usage}
    (found : Association.find? target index = some usage) :
    index.usage target = usage := by
  simp [UsageIndex.usage, found]

theorem find?_eq_some_usage {index : UsageIndex μ} {target : μ}
    (member : target ∈ index.modules) :
    Association.find? target index = some (index.usage target) := by
  obtain ⟨usage, found⟩ := exists_find?_iff.mpr member
  rw [usage_eq_of_find? found, found]

/-- An index whose modules are listed once is determined by the usages it gives
them. -/
theorem eq_map_usage {index : UsageIndex μ} (nodup : index.modules.Nodup) :
    index = index.modules.map fun target => (target, index.usage target) := by
  induction index with
  | nil => rfl
  | cons entry rest ih =>
      have ⟨fresh, restNodup⟩ := List.nodup_cons.mp nodup
      have head : UsageIndex.usage (entry :: rest) entry.1 = entry.2 := by
        simp [UsageIndex.usage, Association.find?]
      have tail : ∀ target ∈ modules rest,
          UsageIndex.usage (entry :: rest) target =
            UsageIndex.usage rest target := by
        intro target member
        have different : entry.1 ≠ target := by
          intro equal
          subst equal
          exact fresh member
        simp [UsageIndex.usage, Association.find?, different]
      have others := List.map_congr_left
        (fun target member => congrArg (target, ·) (tail target member))
      simp only [modules, List.map_cons] at head others ⊢
      rw [head]
      refine congrArg (entry :: ·) ?_
      exact (ih restNodup).trans others.symm

/-- Indices over the same modules, each listed once, with the same usages are
the same index. -/
theorem ext_usage {left right : UsageIndex μ} (nodup : left.modules.Nodup)
    (sameModules : left.modules = right.modules)
    (sameUsage : ∀ target ∈ left.modules,
      left.usage target = right.usage target) : left = right := by
  have leftEq := eq_map_usage nodup
  have rightEq := eq_map_usage (sameModules ▸ nodup)
  rw [leftEq, rightEq, ← sameModules]
  apply List.map_congr_left
  intro target member
  rw [sameUsage target member]

theorem Within.usage {index : UsageIndex μ} (within : index.Within all named)
    (target : μ) : (index.usage target).Within (all target) (named target) := by
  cases found : Association.find? target index with
  | none =>
      simp only [UsageIndex.usage, found, Option.getD_none]
      exact Usage.within_none
  | some usage =>
      rw [usage_eq_of_find? found]
      exact within (target, usage) (mem_of_find?_eq_some found)

@[simp] theorem modules_grow (index : UsageIndex μ) (target : μ)
    (added : Usage) : (index.grow target added).modules = index.modules := by
  rw [modules, modules, grow, List.map_map]
  apply List.map_congr_left
  intro entry _
  simp only [Function.comp_apply]
  split <;> rfl

theorem find?_grow (index : UsageIndex μ) (target other : μ) (added : Usage) :
    Association.find? other (index.grow target added) =
      (Association.find? other index).map fun usage =>
        if other = target then usage.union added else usage := by
  induction index with
  | nil => rfl
  | cons entry rest ih =>
      simp only [grow, List.map_cons] at ih ⊢
      unfold Association.find?
      by_cases isOther : entry.1 = other
      · by_cases isTarget : entry.1 = target
        · simp [← isOther, isTarget]
        · simp [← isOther, isTarget]
      · by_cases isTarget : entry.1 = target
        · rw [if_pos isTarget, if_neg isOther, if_neg isOther, ih]
        · rw [if_neg isTarget, if_neg isOther, if_neg isOther, ih]

theorem usage_grow_self {index : UsageIndex μ} {target : μ} (added : Usage)
    (member : target ∈ index.modules) :
    (index.grow target added).usage target =
      (index.usage target).union added := by
  apply usage_eq_of_find?
  rw [find?_grow, find?_eq_some_usage member]
  simp

theorem usage_le_grow (index : UsageIndex μ) (target other : μ)
    (added : Usage) :
    index.usage other ≤ (index.grow target added).usage other := by
  rw [UsageIndex.usage, UsageIndex.usage, find?_grow]
  cases Association.find? other index with
  | none => exact Usage.le_refl _
  | some usage =>
      simp only [Option.map_some, Option.getD_some]
      split
      · exact Usage.le_union_left usage added
      · exact Usage.le_refl usage

/-! ## What passing on keeps -/

@[simp] theorem modules_pass (index : UsageIndex μ) (reference : Reference μ) :
    (index.pass reference).modules = index.modules :=
  modules_grow index _ _

theorem Within.pass {index : UsageIndex μ} {reference : Reference μ}
    (within : index.Within all named)
    (respects : reference.Respects all named) :
    (index.pass reference).Within all named := by
  intro entry member
  rw [UsageIndex.pass, grow, List.mem_map] at member
  obtain ⟨previous, previousMember, grown⟩ := member
  subst grown
  have before := within previous previousMember
  split
  next atTarget =>
    have added := respects _ (within.usage reference.source)
    rw [← atTarget] at added
    exact before.union added
  next => exact before

theorem usage_le_pass (index : UsageIndex μ) (reference : Reference μ)
    (target : μ) : index.usage target ≤ (index.pass reference).usage target :=
  usage_le_grow index reference.target target _

/-- Properties of indices that every re-export preserves are preserved by a
round. -/
theorem round_induction {motive : UsageIndex μ → Prop}
    {forwarding : List (Reference μ)} {index : UsageIndex μ}
    (start : motive index)
    (step : ∀ index, ∀ reference ∈ forwarding,
      motive index → motive (index.pass reference)) :
    motive (round forwarding index) := by
  induction forwarding generalizing index with
  | nil => exact start
  | cons head rest ih =>
      apply ih
      · exact step index head (by simp) start
      · intro index reference member
        exact step index reference (by simp [member])

@[simp] theorem modules_round (forwarding : List (Reference μ))
    (index : UsageIndex μ) :
    (round forwarding index).modules = index.modules := by
  apply round_induction (motive := fun next => next.modules = index.modules)
  · rfl
  · intro next reference _ same
    rw [modules_pass, same]

/-! ## The weight of an index -/

/-- How far the usages of an index have grown within a vocabulary. -/
def weight (vocabulary : OrderedSet String) (index : UsageIndex μ) : Nat :=
  (index.map fun entry => entry.2.rank vocabulary).sum

/-- The usages of an index name only names of a vocabulary. -/
abbrev InVocabulary (vocabulary : OrderedSet String) (index : UsageIndex μ) :
    Prop :=
  index.Within (fun _ => True) fun _ name => name ∈ vocabulary

/-- The names that a re-export passes on are names of a vocabulary. -/
abbrev RespectsVocabulary (vocabulary : OrderedSet String)
    (reference : Reference μ) : Prop :=
  reference.Respects (fun _ => True) fun _ name => name ∈ vocabulary

variable {vocabulary : OrderedSet String}

omit [DecidableEq μ] in
theorem weight_le {index : UsageIndex μ}
    (within : index.InVocabulary vocabulary) :
    index.weight vocabulary ≤
      index.modules.length * (vocabulary.size + 1) := by
  induction index with
  | nil => simp [weight, modules]
  | cons entry rest ih =>
      have first : entry.2.rank vocabulary ≤ vocabulary.size + 1 :=
        Usage.rank_le (within entry (by simp))
      have others := ih fun other member => within other (by simp [member])
      simp only [weight, modules, List.map_cons, List.sum_cons,
        List.length_cons, Nat.add_mul, Nat.one_mul] at others ⊢
      omega

/-- Growing an index changes nothing or makes it heavier. -/
theorem grow_eq_or_weight_lt {index : UsageIndex μ}
    (within : index.InVocabulary vocabulary) (target : μ) (added : Usage) :
    index.grow target added = index ∨
      index.weight vocabulary <
        (index.grow target added).weight vocabulary := by
  induction index with
  | nil => exact .inl rfl
  | cons entry rest ih =>
      have others := ih fun other member => within other (by simp [member])
      have first := Usage.union_eq_or_rank_lt added (within entry (by simp))
      simp only [grow, weight, List.map_cons, List.sum_cons, List.map_map]
        at others ⊢
      by_cases atTarget : entry.1 = target
      · simp only [if_pos atTarget]
        rcases first with same | heavier
        · rcases others with sameRest | heavierRest
          · left
            rw [same, sameRest]
          · right
            rw [same]
            omega
        · right
          rcases others with sameRest | heavierRest
          · rw [← List.map_map, sameRest]
            omega
          · omega
      · simp only [if_neg atTarget]
        rcases others with sameRest | heavierRest
        · left
          rw [sameRest]
        · right
          omega

theorem foldl_pass_eq_self {references : List (Reference μ)}
    {index : UsageIndex μ}
    (fixed : ∀ reference ∈ references, index.pass reference = index) :
    references.foldl pass index = index := by
  induction references with
  | nil => rfl
  | cons head rest ih =>
      rw [List.foldl_cons, fixed head (by simp)]
      exact ih fun reference member => fixed reference (by simp [member])

/-- Taking re-exports in turn changes nothing, and then none of them has
anything to add, or makes the index heavier. -/
theorem foldl_pass_fixed_or_weight_lt {references : List (Reference μ)}
    {index : UsageIndex μ} (within : index.InVocabulary vocabulary)
    (respects : ∀ reference ∈ references,
      RespectsVocabulary vocabulary reference) :
    (∀ reference ∈ references, index.pass reference = index) ∨
      index.weight vocabulary <
        (references.foldl pass index).weight vocabulary := by
  induction references generalizing index with
  | nil => left; simp
  | cons head rest ih =>
      have restRespects : ∀ reference ∈ rest,
          RespectsVocabulary vocabulary reference :=
        fun reference member => respects reference (by simp [member])
      have passed := within.pass (respects head (by simp))
      rcases grow_eq_or_weight_lt within head.target
        (head.forwarded (index.usage head.source)) with same | heavier
      · have unchanged : index.pass head = index := same
        rw [List.foldl_cons, unchanged]
        rcases ih within restRespects with fixed | heavierRest
        · left
          intro reference member
          rcases List.mem_cons.mp member with equal | later
          · rw [equal, unchanged]
          · exact fixed reference later
        · exact .inr heavierRest
      · right
        have step : index.weight vocabulary <
            (index.pass head).weight vocabulary := heavier
        rw [List.foldl_cons]
        rcases ih passed restRespects with fixed | heavierRest
        · have unchanged : rest.foldl pass (index.pass head) =
              index.pass head := foldl_pass_eq_self fixed
          rw [unchanged]
          exact step
        · omega

theorem round_eq_self_iff {forwarding : List (Reference μ)}
    {index : UsageIndex μ} (within : index.InVocabulary vocabulary)
    (respects : ∀ reference ∈ forwarding,
      RespectsVocabulary vocabulary reference) :
    round forwarding index = index ↔
      ∀ reference ∈ forwarding, index.pass reference = index := by
  constructor
  · intro unchanged
    rcases foldl_pass_fixed_or_weight_lt within respects with fixed | heavier
    · exact fixed
    · have same : forwarding.foldl pass index = index := unchanged
      rw [same] at heavier
      exact absurd heavier (Nat.lt_irrefl _)
  · exact foldl_pass_eq_self

/-- A round that changes something makes the index heavier. -/
theorem weight_lt_round {forwarding : List (Reference μ)}
    {index : UsageIndex μ} (within : index.InVocabulary vocabulary)
    (respects : ∀ reference ∈ forwarding,
      RespectsVocabulary vocabulary reference)
    (changed : round forwarding index ≠ index) :
    index.weight vocabulary <
      (round forwarding index).weight vocabulary := by
  rcases foldl_pass_fixed_or_weight_lt within respects with fixed | heavier
  · exact absurd (foldl_pass_eq_self fixed) changed
  · exact heavier

/-! ## Rounds until nothing changes -/

/-- Rounds that start from an index end in another: the last of them changes
nothing, and each before it changes something.  The number counts them all. -/
inductive Settles (forwarding : List (Reference μ)) :
    UsageIndex μ → UsageIndex μ → Nat → Prop where
  | last {index : UsageIndex μ} (unchanged : round forwarding index = index) :
      Settles forwarding index index 1
  | next {index final : UsageIndex μ} {rounds : Nat}
      (changed : round forwarding index ≠ index)
      (rest : Settles forwarding (round forwarding index) final rounds) :
      Settles forwarding index final (rounds + 1)

namespace Settles

variable {forwarding : List (Reference μ)} {index final : UsageIndex μ}
  {rounds : Nat}

/-- Rounds that end are the rounds computed under any limit that allows for as
many. -/
theorem settle_eq (settles : Settles forwarding index final rounds)
    {limit : Nat} (enough : rounds ≤ limit) :
    settle forwarding limit index = (final, rounds) := by
  induction settles generalizing limit with
  | last unchanged =>
      cases limit with
      | zero => omega
      | succ limit => simp [settle, unchanged]
  | next changed rest ih =>
      cases limit with
      | zero => omega
      | succ limit =>
          have others := ih (Nat.le_of_succ_le_succ enough)
          simp [settle, changed, others]

/-- Rounds end in an index that a round leaves as it is. -/
theorem unchanged (settles : Settles forwarding index final rounds) :
    round forwarding final = final := by
  induction settles with
  | last unchanged => exact unchanged
  | next _ _ ih => exact ih

/-- Properties of indices that every re-export preserves hold where rounds
end. -/
theorem preserved (settles : Settles forwarding index final rounds)
    {motive : UsageIndex μ → Prop} (start : motive index)
    (step : ∀ index, ∀ reference ∈ forwarding,
      motive index → motive (index.pass reference)) : motive final := by
  induction settles with
  | last _ => exact start
  | next _ _ ih => exact ih (round_induction start step)

theorem within (settles : Settles forwarding index final rounds)
    (start : index.Within all named)
    (respects : ∀ reference ∈ forwarding, reference.Respects all named) :
    final.Within all named := by
  apply settles.preserved (motive := fun index => index.Within all named) start
  intro index reference member within
  exact within.pass (respects reference member)

theorem modules_eq (settles : Settles forwarding index final rounds) :
    final.modules = index.modules := by
  apply settles.preserved
    (motive := fun next => next.modules = index.modules) rfl
  intro next reference _ same
  rw [modules_pass, same]

theorem usage_le (settles : Settles forwarding index final rounds)
    (target : μ) : index.usage target ≤ final.usage target := by
  apply settles.preserved
    (motive := fun next => index.usage target ≤ next.usage target)
    (Usage.le_refl _)
  intro next reference _ lower
  exact Usage.le_trans lower (usage_le_pass next reference target)

/-- Where rounds end, every re-export has nothing to add. -/
theorem forwarded_le (settles : Settles forwarding index final rounds)
    (start : index.InVocabulary vocabulary)
    (respects : ∀ reference ∈ forwarding,
      RespectsVocabulary vocabulary reference)
    {reference : Reference μ} (member : reference ∈ forwarding)
    (listed : reference.target ∈ index.modules) :
    reference.forwarded (final.usage reference.source) ≤
      final.usage reference.target := by
  have fixed := (round_eq_self_iff (settles.within start respects) respects).mp
    settles.unchanged reference member
  have grown := usage_grow_self
    (reference.forwarded (final.usage reference.source))
    (settles.modules_eq ▸ listed)
  have same : final.grow reference.target
      (reference.forwarded (final.usage reference.source)) = final := fixed
  rw [same] at grown
  exact grown.symm

end Settles

/-- Rounds always end, and every round but the last makes the index heavier. -/
theorem exists_settles {forwarding : List (Reference μ)}
    (index : UsageIndex μ) (within : index.InVocabulary vocabulary)
    (respects : ∀ reference ∈ forwarding,
      RespectsVocabulary vocabulary reference) :
    ∃ final rounds, Settles forwarding index final rounds ∧
      rounds + index.weight vocabulary ≤ 1 + final.weight vocabulary := by
  by_cases unchanged : round forwarding index = index
  · exact ⟨index, 1, .last unchanged, Nat.le_refl _⟩
  · have nextWithin : (round forwarding index).InVocabulary vocabulary :=
      round_induction within fun next reference member nextWithin =>
        nextWithin.pass (respects reference member)
    have heavier := weight_lt_round within respects unchanged
    have limit : (round forwarding index).weight vocabulary ≤
        index.modules.length * (vocabulary.size + 1) := by
      simpa using weight_le nextWithin
    obtain ⟨final, rounds, settles, bound⟩ :=
      exists_settles (round forwarding index) nextWithin respects
    exact ⟨final, rounds + 1, .next unchanged settles, by omega⟩
termination_by
  index.modules.length * (vocabulary.size + 1) - index.weight vocabulary
decreasing_by
  rw [modules_round]
  omega

end UsageIndex

end ExportAudit
