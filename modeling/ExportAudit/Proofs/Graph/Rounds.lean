import Mathlib.Logic.Function.Iterate
import ExportAudit.Proofs.Graph.Derivation

/-!
# How many rounds of re-exports there are

A moment of the rounds is described by how many rounds are over and how many
re-exports have had their turn in the round that follows.  At every moment the
names of an index come from one finite set, and a turn never takes a usage back.

`rounds_bounded` says that rounds end, that each of them but the last raises the
usage of some module, and how many there are at most.
-/

namespace ExportAudit

variable {μ : Type} [DecidableEq μ]

namespace UsageIndex

variable {forwarding : List (Reference μ)} {start final : UsageIndex μ}
  {rounds : Nat}

/-- The index at a moment: some rounds are over, and some re-exports have had
their turn in the next one. -/
def moment (forwarding : List (Reference μ)) (start : UsageIndex μ)
    (rounds turns : Nat) : UsageIndex μ :=
  round (forwarding.take turns) ((round forwarding)^[rounds] start)

/-- Properties of indices that every re-export preserves hold at every
moment. -/
theorem moment_induction {motive : UsageIndex μ → Prop} (begins : motive start)
    (step : ∀ index, ∀ reference ∈ forwarding,
      motive index → motive (index.pass reference))
    (rounds turns : Nat) : motive (moment forwarding start rounds turns) := by
  have between : motive ((round forwarding)^[rounds] start) := by
    induction rounds with
    | zero => exact begins
    | succ rounds ih =>
        rw [Function.iterate_succ_apply']
        exact round_induction ih step
  apply round_induction between
  intro index reference member
  exact step index reference (List.mem_of_mem_take member)

/-- A turn takes no usage back. -/
theorem usage_le_next_turn (rounds turns : Nat) (target : μ) :
    (moment forwarding start rounds turns).usage target ≤
      (moment forwarding start rounds (turns + 1)).usage target := by
  rw [moment, moment, round, round, List.take_add_one, List.foldl_append]
  cases forwarding[turns]? with
  | none => exact Usage.le_refl _
  | some reference => exact usage_le_pass _ reference target

theorem round_moment (rounds : Nat) :
    moment forwarding start (rounds + 1) 0 =
      round forwarding (moment forwarding start rounds 0) :=
  Function.iterate_succ_apply' ..

theorem usage_le_next_round (rounds : Nat) (target : μ) :
    (moment forwarding start rounds 0).usage target ≤
      (moment forwarding start (rounds + 1) 0).usage target := by
  rw [round_moment]
  apply round_induction
    (motive := fun next => (moment forwarding start rounds 0).usage target ≤
      next.usage target)
  · exact Usage.le_refl _
  · intro next reference _ lower
    exact Usage.le_trans lower (usage_le_pass next reference target)

@[simp] theorem modules_moment (rounds turns : Nat) :
    (moment forwarding start rounds turns).modules = start.modules := by
  apply moment_induction (motive := fun next => next.modules = start.modules)
  · rfl
  · intro next reference _ same
    rw [modules_pass, same]

/-- A round that changes an index over modules listed once raises the usage of
one of them. -/
theorem exists_raised (nodup : start.modules.Nodup)
    (changed : moment forwarding start (rounds + 1) 0 ≠
      moment forwarding start rounds 0) :
    ∃ target ∈ start.modules,
      (moment forwarding start rounds 0).usage target ≠
        (moment forwarding start (rounds + 1) 0).usage target := by
  by_contra same
  push Not at same
  apply changed
  apply ext_usage
  · rw [modules_moment]
    exact nodup
  · rw [modules_moment, modules_moment]
  · intro target member
    rw [modules_moment] at member
    exact (same target member).symm

namespace Settles

theorem rounds_pos (settles : Settles forwarding start final rounds) :
    0 < rounds := by
  cases settles with
  | last => exact Nat.one_pos
  | next => exact Nat.succ_pos _

/-- Rounds end in what their last round finds. -/
theorem final_eq_moment (settles : Settles forwarding start final rounds) :
    final = moment forwarding start (rounds - 1) 0 := by
  induction settles with
  | last => rfl
  | next _ rest ih =>
      obtain ⟨before, same⟩ :=
        Nat.exists_eq_succ_of_ne_zero (Nat.ne_of_gt rest.rounds_pos)
      rw [same] at ih ⊢
      exact ih

/-- Every round but the last changes the index. -/
theorem moment_changes (settles : Settles forwarding start final rounds)
    {number : Nat} (earlier : number + 1 < rounds) :
    moment forwarding start (number + 1) 0 ≠
      moment forwarding start number 0 := by
  induction settles generalizing number with
  | last => omega
  | next changed rest ih =>
      cases number with
      | zero => exact changed
      | succ number => exact ih (Nat.lt_of_succ_lt_succ earlier)

/-- No re-export has anything to add in its turn in the last round. -/
theorem moment_eq_final {vocabulary : OrderedSet String}
    (settles : Settles forwarding start final rounds)
    (within : start.InVocabulary vocabulary)
    (respects : ∀ reference ∈ forwarding,
      RespectsVocabulary vocabulary reference) (turns : Nat) :
    moment forwarding start (rounds - 1) turns = final := by
  have fixed := (round_eq_self_iff (settles.within within respects)
    respects).mp settles.unchanged
  have reached := settles.final_eq_moment
  have turned : moment forwarding start (rounds - 1) turns =
      round (forwarding.take turns) final := by
    rw [reached]
    rfl
  rw [turned]
  apply foldl_pass_eq_self
  intro reference member
  exact fixed reference (List.mem_of_mem_take member)

end Settles

end UsageIndex

namespace Graph

/-- The names that can occur in a finite usage of a built graph: those that
other references use and those that re-exports import. -/
theorem mem_nameUniverse_build {modules : List μ}
    {references : List (Reference μ)} {name : String} :
    name ∈ (build modules references).nameUniverse ↔
      ∃ reference : Reference μ, reference.Kept modules references ∧
        if reference.kind.forwards then
          ∃ forward ∈ reference.forwards, forward.imported = name
        else ∃ names, reference.uses = .only names ∧ name ∈ names := by
  rw [nameUniverse, OrderedSet.mem_ofList, List.mem_flatMap]
  apply exists_congr
  intro reference
  rw [mem_build_references]
  apply and_congr_right
  intro _
  cases passes : reference.kind.forwards with
  | true => simp [referenceNames, passes]
  | false =>
      cases uses : reference.uses with
      | all => simp [referenceNames, passes, uses]
      | only names => simp [referenceNames, passes, uses, OrderedSet.mem_def]

/-- Rounds end, in whatever order a round takes the re-exports.  At every moment
a finite entry holds only names that other references use or that re-exports
import, and no turn takes anything back.  Every round but the last raises the
usage of some module, in the last no re-export adds anything, and there are at
most as many rounds as modules and names allow, so the computed rounds are never
cut short. -/
theorem rounds_bounded (modules : List μ) (references : List (Reference μ))
    (order : List (Reference μ))
    (rearranged : order.Perm (build modules references).forwarding) :
    let graph := build modules references
    let moment := UsageIndex.moment order graph.ownUsage
    (∀ name, name ∈ graph.nameUniverse ↔
      ∃ reference : Reference μ, reference.Kept modules references ∧
        if reference.kind.forwards then
          ∃ forward ∈ reference.forwards, forward.imported = name
        else ∃ names, reference.uses = .only names ∧ name ∈ names) ∧
    (∀ rounds turns target,
      (∀ names, (target, .only names) ∈ moment rounds turns →
        ∀ name ∈ names, name ∈ graph.nameUniverse) ∧
      (moment rounds turns).usage target ≤
        (moment rounds (turns + 1)).usage target) ∧
    ∃ final rounds, UsageIndex.Settles order graph.ownUsage final rounds ∧
      (∀ number, number + 1 < rounds → ∃ target ∈ graph.modules,
        (moment number 0).usage target ≤ (moment (number + 1) 0).usage target ∧
        (moment number 0).usage target ≠
          (moment (number + 1) 0).usage target) ∧
      (∀ turns, moment (rounds - 1) turns = final) ∧
      rounds ≤ 1 + graph.modules.length * (graph.nameUniverse.size + 1) ∧
      UsageIndex.settle order graph.roundLimit graph.ownUsage =
        (final, rounds) := by
  intro graph moment
  have within : graph.ownUsage.InVocabulary graph.nameUniverse :=
    graph.ownUsage_inVocabulary
  have respects : ∀ reference ∈ order,
      UsageIndex.RespectsVocabulary graph.nameUniverse reference :=
    fun reference member => graph.forwarding_respects_vocabulary reference
      (rearranged.mem_iff.mp member)
  have listed : graph.ownUsage.modules = graph.modules := modules_usageOf ..
  have always : ∀ rounds turns,
      (moment rounds turns).InVocabulary graph.nameUniverse :=
    UsageIndex.moment_induction within fun index reference member holds =>
      holds.pass (respects reference member)
  refine ⟨fun name => mem_nameUniverse_build, ?_, ?_⟩
  · intro rounds turns target
    constructor
    · intro names member
      exact always rounds turns _ member
    · exact UsageIndex.usage_le_next_turn rounds turns target
  · obtain ⟨final, rounds, settles, bound⟩ :=
      graph.exists_settles_ownUsage rearranged
    refine ⟨final, rounds, settles, ?_, ?_, bound, settles.settle_eq bound⟩
    · intro number earlier
      have nodup : graph.ownUsage.modules.Nodup := by
        rw [listed]
        exact nodup_build_modules modules references
      obtain ⟨target, member, raised⟩ :=
        UsageIndex.exists_raised nodup (settles.moment_changes earlier)
      rw [listed] at member
      exact ⟨target, member, UsageIndex.usage_le_next_round number target,
        raised⟩
    · exact settles.moment_eq_final within respects

/-- On the cycle of barrels, with every round taking the re-exports backwards,
rounds end within thirteen. -/
theorem rounds_barrelCycle :
    (build [0, 1, 2, 3] barrelCycle).forwarding.reverse.Perm
      (build [0, 1, 2, 3] barrelCycle).forwarding ∧
    ∃ final rounds, UsageIndex.Settles
      (build [0, 1, 2, 3] barrelCycle).forwarding.reverse
      (build [0, 1, 2, 3] barrelCycle).ownUsage final rounds ∧
      rounds ≤ 1 + 4 * (2 + 1) := by
  have rearranged := List.reverse_perm
    (build [0, 1, 2, 3] barrelCycle).forwarding
  have bounded := rounds_bounded [0, 1, 2, 3] barrelCycle
    (build [0, 1, 2, 3] barrelCycle).forwarding.reverse rearranged
  obtain ⟨final, rounds, settles, _, _, bound, _⟩ := bounded.2.2
  have size : (build [0, 1, 2, 3] barrelCycle).nameUniverse.size = 2 := by
    decide
  have count : (build [0, 1, 2, 3] barrelCycle).modules.length = 4 := by
    decide
  rw [size, count] at bound
  exact ⟨rearranged, final, rounds, settles, bound⟩

end Graph

end ExportAudit
