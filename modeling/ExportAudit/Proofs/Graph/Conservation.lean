import ExportAudit.Proofs.Graph.Building

/-!
# No reference is lost

Building a graph neither loses nor repeats a reference between its modules.
Two modules have an edge exactly if a reference connects them, the edge carries
all references from the one to the other in the order in which they were given,
and the references to a module are, up to order, those that were given.
-/

namespace ExportAudit.Graph

variable {μ : Type} [DecidableEq μ]

/-- Between two modules of a graph every given reference is kept. -/
theorem between_kept {modules : List μ} {source target : μ}
    (sourceListed : source ∈ modules) (targetListed : target ∈ modules)
    (references : List (Reference μ)) :
    between source target (kept modules references) =
      between source target references := by
  rw [between, between, kept, List.filter_filter]
  apply List.filter_congr
  intro reference _
  by_cases ends : reference.source = source ∧ reference.target = target
  · simp [ends, sourceListed, targetListed]
  · simp [ends]

/-- Two modules have an edge exactly if a given reference connects them. -/
theorem exists_edge_build {modules : List μ} {references : List (Reference μ)}
    {source target : μ} :
    (∃ edge ∈ (build modules references).edges,
      edge.source = source ∧ edge.target = target) ↔
      ∃ reference : Reference μ, reference.Kept modules references ∧
        reference.source = source ∧ reference.target = target := by
  have bundles := build_bundles modules references
  constructor
  · rintro ⟨edge, member, sourceEq, targetEq⟩
    have carried := bundles.carried edge member
    cases listed : edge.references with
    | nil => exact absurd listed (bundles.inhabited edge member)
    | cons reference rest =>
        have inside : reference ∈
            between edge.source edge.target (kept modules references) := by
          rw [← carried, listed]
          exact List.mem_cons_self ..
        rw [between, List.mem_filter, decide_eq_true_eq, mem_kept] at inside
        exact ⟨reference, inside.1, inside.2.1.trans sourceEq,
          inside.2.2.trans targetEq⟩
  · rintro ⟨reference, isKept, sourceEq, targetEq⟩
    obtain ⟨edge, member, ends⟩ :=
      bundles.complete reference (mem_kept.mpr isKept)
    exact ⟨edge, member, ends.1.trans sourceEq, ends.2.trans targetEq⟩

/-- An edge of a built graph carries all given references between its modules,
in the order in which they were given. -/
theorem references_eq_between {modules : List μ}
    {references : List (Reference μ)} {edge : Edge μ}
    (member : edge ∈ (build modules references).edges) :
    edge.references = between edge.source edge.target references := by
  obtain ⟨reference, isKept, source, target⟩ :=
    exists_edge_build.mp ⟨edge, member, rfl, rfl⟩
  rw [(build_bundles modules references).carried edge member]
  exact between_kept (source ▸ isKept.source_mem) (target ▸ isKept.target_mem) _

/-- Building a graph loses and repeats no reference.  Two modules have one edge
if a given reference connects them and none otherwise, and it carries exactly
those references in order; the references to a module are, up to order, the
given ones that connect two modules and lead to it. -/
theorem build_conserves (modules : List μ) (references : List (Reference μ)) :
    (∀ source target,
      (∃ edge ∈ (build modules references).edges,
        edge.source = source ∧ edge.target = target) ↔
        source ∈ modules ∧ target ∈ modules ∧
          ∃ reference ∈ references,
            reference.source = source ∧ reference.target = target) ∧
    ((build modules references).edges.Pairwise fun left right =>
      ¬ (left.source = right.source ∧ left.target = right.target)) ∧
    (∀ edge ∈ (build modules references).edges,
      edge.references = references.filter fun reference =>
        reference.source = edge.source ∧ reference.target = edge.target) ∧
    ∀ target, ((build modules references).incoming target).Perm
      (references.filter fun reference =>
        reference.source ∈ modules ∧ reference.target ∈ modules ∧
          reference.target = target) := by
  refine ⟨fun source target => ?_,
    (build_bundles modules references).distinct,
    fun _ member => references_eq_between member, fun target => ?_⟩
  · rw [exists_edge_build]
    constructor
    · rintro ⟨reference, isKept, sourceEq, targetEq⟩
      exact ⟨sourceEq ▸ isKept.source_mem, targetEq ▸ isKept.target_mem,
        reference, isKept.given, sourceEq, targetEq⟩
    · rintro ⟨sourceListed, targetListed, reference, given, sourceEq, targetEq⟩
      exact ⟨reference, ⟨given, sourceEq.symm ▸ sourceListed,
        targetEq.symm ▸ targetListed⟩, sourceEq, targetEq⟩
  · have perm := incoming_build_perm modules references target
    rw [kept, List.filter_filter] at perm
    simpa only [Bool.decide_and, Bool.and_comm, Bool.and_left_comm] using perm

end ExportAudit.Graph
