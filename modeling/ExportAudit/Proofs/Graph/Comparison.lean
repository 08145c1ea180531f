import Mathlib.Logic.Relation
import ExportAudit.Proofs.Graph.Derivation

/-!
# Comparing usages

The usage of a module under the transitive policy is at most its usage under the
direct policy, because no reference passes on more than it uses.

The usage of a module depends on the references that lead to it, directly or
through re-exports.  If all of these are references of another graph as well,
the usage of the module in the other graph is at least as large, under either
policy and whatever else the other graph holds.
-/

namespace ExportAudit

/-! ## Usages that are at most others -/

namespace Usage

/-- A usage stays within what another says exactly if it is at most the
other. -/
theorem within_iff_le {lower upper : Usage} :
    lower.Within (upper = .all) (fun name => name ∈ upper) ↔
      lower ≤ upper := by
  rw [le_iff]
  cases lower with
  | all =>
      constructor
      · intro everything
        exact ⟨fun _ => everything, fun name _ => everything ▸ mem_all name⟩
      · intro atMost
        exact atMost.1 rfl
  | only names =>
      constructor
      · intro within
        refine ⟨?_, within⟩
        intro finite
        cases finite
      · intro atMost
        exact atMost.2

/-- What a usage is required to stay within only on a condition. -/
theorem within_imp_iff {condition : Prop} {lower upper : Usage} :
    lower.Within (condition → upper = .all)
        (fun name => condition → name ∈ upper) ↔
      (condition → lower ≤ upper) := by
  rw [← within_iff_le]
  by_cases holds : condition
  · simp only [holds, true_implies]
  · cases lower with
    | all => simp [Within, holds]
    | only names => simp [Within, holds]

theorem none_le (usage : Usage) : Usage.none ≤ usage :=
  within_iff_le.mp within_none

end Usage

variable {μ : Type}

namespace Reference

variable {reference : Reference μ}

/-- The more is used of its source, the more a reference passes on. -/
theorem forwarded_mono {lower upper : Usage} (atMost : lower ≤ upper) :
    reference.forwarded lower ≤ reference.forwarded upper := by
  have names := (Usage.le_iff.mp atMost).2
  cases kind : reference.kind with
  | forward =>
      apply Usage.within_iff_le.mp
      simp only [forwarded, kind, Usage.within_ofList, List.mem_map,
        List.mem_filter, decide_eq_true_eq]
      intro name passed
      obtain ⟨forward, ⟨member, used⟩, rfl⟩ := passed
      rw [Usage.mem_ofList, List.mem_map]
      refine ⟨forward, List.mem_filter.mpr ⟨member, ?_⟩, rfl⟩
      exact decide_eq_true (names forward.exported used)
  | starForward =>
      cases lower with
      | all =>
          rw [(Usage.le_iff.mp atMost).1 rfl]
          exact Usage.le_refl _
      | only lowerNames =>
          apply Usage.within_iff_le.mp
          simp only [forwarded, kind]
          intro name member
          obtain ⟨used, different⟩ := OrderedSet.mem_erase.mp member
          have passed : name ∈ reference.forwarded upper :=
            mem_forwarded_of_star kind (names name used) different
          simpa only [forwarded, kind] using passed
  | namespaceForward =>
      by_cases used : reference.namespaceName ∈ lower
      · rw [forwarded_of_namespace kind (names _ used)]
        exact Usage.le_all _
      · have nothing : reference.forwarded lower = .none := by
          simp only [forwarded, kind, if_neg used]
        rw [nothing]
        exact Usage.none_le _
  | importing | dynamicImport | require =>
      simp only [forwarded, kind]
      exact Usage.le_refl _

/-- A reference passes on no more than it uses. -/
def Bounded (reference : Reference μ) : Prop :=
  ∀ usage, reference.forwarded usage ≤ reference.uses

theorem bounded_of_all (everything : reference.uses = .all) :
    reference.Bounded := by
  intro usage
  rw [everything]
  exact Usage.le_all _

theorem bounded_of_own (own : reference.kind.forwards = false) :
    reference.Bounded := by
  intro usage
  cases kind : reference.kind with
  | forward | starForward | namespaceForward =>
      rw [kind] at own
      cases own
  | importing | dynamicImport | require =>
      simp only [forwarded, kind]
      exact Usage.le_refl _

theorem bounded_of_forward (kind : reference.kind = .forward)
    (uses : reference.uses = .ofList (reference.forwards.map (·.imported))) :
    reference.Bounded := by
  intro usage
  rw [uses]
  apply Usage.within_iff_le.mp
  simp only [forwarded, kind, Usage.within_ofList, List.mem_map,
    List.mem_filter, Usage.mem_ofList]
  intro name passed
  obtain ⟨forward, ⟨member, _⟩, rfl⟩ := passed
  exact ⟨forward, member, rfl⟩

end Reference

namespace Graph

variable [DecidableEq μ] {modules others : List μ}
  {references otherReferences : List (Reference μ)}

/-! ## The direct and the transitive policy -/

/-- Under the direct policy everything counts that a reference uses. -/
theorem uses_le_directUsage {reference : Reference μ}
    (kept : reference.Kept modules references) :
    reference.uses ≤
      (build modules references).directUsage.usage reference.target := by
  rw [directUsage, usage_usageOf (mem_build_modules.mpr kept.target_mem)]
  apply Usage.le_unionAll
  apply List.mem_map.mpr
  refine ⟨reference, List.mem_filter.mpr ⟨?_, rfl⟩, rfl⟩
  exact mem_incoming_build.mpr ⟨kept, rfl⟩

/-- What is used under the transitive policy is used under the direct one. -/
theorem transitiveUsage_le_directUsage
    (bounded : ∀ reference ∈ references, reference.Bounded) (target : μ) :
    (build modules references).transitiveUsage.usage target ≤
      (build modules references).directUsage.usage target := by
  have within : (build modules references).transitiveUsage.Within
      (fun module => (build modules references).directUsage.usage module = .all)
      (fun module name =>
        name ∈ (build modules references).directUsage.usage module) := by
    refine settled_within ?_ ?_ (List.Perm.refl _) (settles_settledUsage _)
    · intro reference kept _
      exact Usage.within_iff_le.mpr (uses_le_directUsage kept)
    · intro reference kept _ usage _
      apply Usage.within_iff_le.mpr
      exact Usage.le_trans (bounded reference kept.given usage)
        (uses_le_directUsage kept)
  exact Usage.within_iff_le.mp (within.usage target)

/-! ## Parts of graphs -/

/-- Within a region of modules one graph is part of another: a reference that
leads into the region starts there and is kept in the other graph. -/
def PartOf (region : μ → Prop) (modules : List μ)
    (references : List (Reference μ)) (others : List μ)
    (otherReferences : List (Reference μ)) : Prop :=
  ∀ reference : Reference μ, reference.Kept modules references →
    region reference.target →
      region reference.source ∧ reference.Kept others otherReferences

variable {region : μ → Prop} {target : μ}

theorem PartOf.directUsage_le
    (part : PartOf region modules references others otherReferences)
    (inside : region target) :
    (build modules references).directUsage.usage target ≤
      (build others otherReferences).directUsage.usage target := by
  have within : (build modules references).directUsage.Within
      (fun module => region module →
        (build others otherReferences).directUsage.usage module = .all)
      (fun module name => region module →
        name ∈ (build others otherReferences).directUsage.usage module) := by
    apply usageOf_within
    intro reference kept _
    apply Usage.within_imp_iff.mpr
    intro led
    exact uses_le_directUsage (part reference kept led).2
  exact Usage.within_imp_iff.mp (within.usage target) inside

theorem PartOf.transitiveUsage_le
    (part : PartOf region modules references others otherReferences)
    (inside : region target) :
    (build modules references).transitiveUsage.usage target ≤
      (build others otherReferences).transitiveUsage.usage target := by
  have closed : (build others otherReferences).transitiveUsage.Closed others
      otherReferences :=
    settled_closed (List.Perm.refl _) (settles_settledUsage _)
  have within : (build modules references).transitiveUsage.Within
      (fun module => region module →
        (build others otherReferences).transitiveUsage.usage module = .all)
      (fun module name => region module →
        name ∈
          (build others otherReferences).transitiveUsage.usage module) := by
    refine settled_within ?_ ?_ (List.Perm.refl _) (settles_settledUsage _)
    · intro reference kept own
      apply Usage.within_imp_iff.mpr
      intro led
      exact closed.own reference (part reference kept led).2 own
    · intro reference kept passes usage usageWithin
      apply Usage.within_imp_iff.mpr
      intro led
      obtain ⟨starts, keptThere⟩ := part reference kept led
      have atMost := Usage.within_imp_iff.mp usageWithin starts
      exact Usage.le_trans (Reference.forwarded_mono atMost)
        (closed.passed reference keptThere passes)
  exact Usage.within_imp_iff.mp (within.usage target) inside

/-- In the region in which a graph is part of another, no module is used more
than in the other graph. -/
theorem PartOf.usage_le {policy : ReexportPolicy}
    (part : PartOf region modules references others otherReferences)
    (inside : region target) :
    ((build modules references).usageIndex policy).usage target ≤
      ((build others otherReferences).usageIndex policy).usage target := by
  cases policy with
  | direct => exact part.directUsage_le inside
  | transitive => exact part.transitiveUsage_le inside

/-! ## Modules that can be reached -/

/-- An edge of a graph leads from one module to another. -/
def Adjacent (graph : Graph μ) (source target : μ) : Prop :=
  ∃ edge ∈ graph.edges, edge.source = source ∧ edge.target = target

/-- Edges of a graph lead from one module to another, in any number of
steps. -/
def Reaches (graph : Graph μ) (source target : μ) : Prop :=
  Relation.ReflTransGen graph.Adjacent source target

theorem adjacent_of_kept {reference : Reference μ}
    (kept : reference.Kept modules references) :
    (build modules references).Adjacent reference.source reference.target :=
  (build_bundles modules references).complete reference (mem_kept.mpr kept)

/-- A reference to a module that cannot be reached starts at another that cannot
be reached. -/
theorem not_reaches_source {start : μ} {reference : Reference μ}
    (kept : reference.Kept modules references)
    (unreached : ¬ (build modules references).Reaches start reference.target) :
    ¬ (build modules references).Reaches start reference.source := by
  intro reached
  exact unreached (reached.tail (adjacent_of_kept kept))

end Graph

end ExportAudit
