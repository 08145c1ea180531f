import Mathlib.Tactic.Tauto
import ExportAudit.Graph

/-!
# What a graph is built of

The edges of a built graph bundle the references between modules of the graph:
every such reference stands on the one edge from its source to its target, and
an edge carries its references in the order in which they were given.
-/

namespace ExportAudit

variable {μ : Type} [DecidableEq μ]

/-- Erasing repetitions leaves every value once. -/
theorem nodup_eraseDups {α : Type} [DecidableEq α] (values : List α) :
    values.eraseDups.Nodup := by
  cases values with
  | nil => simp
  | cons head rest =>
      rw [List.eraseDups_cons, List.nodup_cons]
      constructor
      · simp
      · exact nodup_eraseDups (rest.filter fun other => !other == head)
termination_by values.length
decreasing_by
  have shorter := List.length_filter_le (fun other => !other == head) rest
  simp only [List.length_cons]
  omega

/-- A reference is given and connects two of the given modules. -/
structure Reference.Kept (modules : List μ) (references : List (Reference μ))
    (reference : Reference μ) : Prop where
  given : reference ∈ references
  source_mem : reference.source ∈ modules
  target_mem : reference.target ∈ modules

namespace Graph

/-- The given references that connect two of the given modules, in order. -/
def kept (modules : List μ) (references : List (Reference μ)) :
    List (Reference μ) :=
  references.filter fun reference =>
    reference.source ∈ modules ∧ reference.target ∈ modules

theorem mem_kept {modules : List μ} {references : List (Reference μ)}
    {reference : Reference μ} :
    reference ∈ kept modules references ↔
      reference.Kept modules references := by
  simp only [kept, List.mem_filter, decide_eq_true_eq]
  exact ⟨fun ⟨given, ends⟩ => ⟨given, ends.1, ends.2⟩,
    fun holds => ⟨holds.given, holds.source_mem, holds.target_mem⟩⟩

/-- The references of a list from one module to another. -/
def between (source target : μ) (references : List (Reference μ)) :
    List (Reference μ) :=
  references.filter fun reference =>
    reference.source = source ∧ reference.target = target

/-- Edges bundle references: there is one edge for each pair of modules that a
reference connects, and it carries all references between them in order. -/
structure Bundles (edges : List (Edge μ)) (references : List (Reference μ)) :
    Prop where
  distinct : edges.Pairwise fun left right =>
    ¬ (left.source = right.source ∧ left.target = right.target)
  carried : ∀ edge ∈ edges,
    edge.references = between edge.source edge.target references
  inhabited : ∀ edge ∈ edges, edge.references ≠ []
  complete : ∀ reference ∈ references, ∃ edge ∈ edges,
    edge.source = reference.source ∧ edge.target = reference.target

theorem Bundles.nil : Bundles ([] : List (Edge μ)) [] :=
  ⟨.nil, by simp, by simp, by simp⟩

/-- Adding a reference extends the one edge between its modules or, where there
is none, adds an edge. -/
theorem addReference_cases (reference : Reference μ) (edges : List (Edge μ)) :
    (∃ before edge after, edges = before ++ edge :: after ∧
      edge.source = reference.source ∧ edge.target = reference.target ∧
      addReference reference edges = before ++
        { edge with references := edge.references ++ [reference] } :: after) ∨
    ((∀ edge ∈ edges,
        ¬ (edge.source = reference.source ∧ edge.target = reference.target)) ∧
      addReference reference edges =
        edges ++ [⟨reference.source, reference.target, [reference]⟩]) := by
  induction edges with
  | nil =>
      right
      simp [addReference]
  | cons head rest ih =>
      unfold addReference
      split
      next ends =>
        left
        exact ⟨[], head, rest, rfl, ends.1, ends.2, rfl⟩
      next different =>
        rcases ih with found | missing
        · left
          obtain ⟨before, edge, after, split, source, target, added⟩ := found
          refine ⟨head :: before, edge, after, ?_, source, target, ?_⟩
          · rw [split, List.cons_append]
          · rw [added, List.cons_append]
        · right
          obtain ⟨absent, added⟩ := missing
          refine ⟨?_, by rw [added, List.cons_append]⟩
          intro edge member
          rcases List.mem_cons.mp member with equal | later
          · subst equal
            exact different
          · exact absent edge later

theorem between_append_self {source target : μ}
    {references : List (Reference μ)} {reference : Reference μ}
    (ends : source = reference.source ∧ target = reference.target) :
    between source target (references ++ [reference]) =
      between source target references ++ [reference] := by
  simp [between, List.filter_append, ends.1, ends.2]

theorem between_append_of_ne {source target : μ}
    {references : List (Reference μ)} {reference : Reference μ}
    (different : ¬ (source = reference.source ∧ target = reference.target)) :
    between source target (references ++ [reference]) =
      between source target references := by
  have excluded :
      ¬ (reference.source = source ∧ reference.target = target) :=
    fun ends => different ⟨ends.1.symm, ends.2.symm⟩
  simp [between, List.filter_append, excluded]

/-- Bundling is kept when a reference joins the edge between its modules. -/
private theorem Bundles.extend {before after : List (Edge μ)} {edge : Edge μ}
    {references : List (Reference μ)} {reference : Reference μ}
    (bundles : Bundles (before ++ edge :: after) references)
    (source : edge.source = reference.source)
    (target : edge.target = reference.target) :
    Bundles (before ++
      { edge with references := edge.references ++ [reference] } :: after)
      (references ++ [reference]) := by
  have distinct := bundles.distinct
  rw [List.pairwise_append, List.pairwise_cons] at distinct
  obtain ⟨beforeDistinct, ⟨afterEdge, afterDistinct⟩, across⟩ := distinct
  have elsewhere_ne : ∀ other, other ∈ before ∨ other ∈ after →
      ¬ (other.source = reference.source ∧
        other.target = reference.target) := by
    rintro other (inBefore | inAfter) ends
    · apply across other inBefore edge (by simp)
      exact ⟨ends.1.trans source.symm, ends.2.trans target.symm⟩
    · apply afterEdge other inAfter
      exact ⟨source.trans ends.1.symm, target.trans ends.2.symm⟩
  have mem_cases : ∀ other, other ∈ before ++
      { edge with references := edge.references ++ [reference] } :: after →
      other = { edge with references := edge.references ++ [reference] } ∨
        (other ∈ before ∨ other ∈ after) := by
    intro other member
    simp only [List.mem_append, List.mem_cons] at member
    tauto
  constructor
  case distinct =>
    rw [List.pairwise_append, List.pairwise_cons]
    refine ⟨beforeDistinct, ⟨afterEdge, afterDistinct⟩, ?_⟩
    intro left leftMember right rightMember
    rcases List.mem_cons.mp rightMember with equal | later
    · subst equal
      exact across left leftMember edge (by simp)
    · exact across left leftMember right (by simp [later])
  case carried =>
    intro other member
    rcases mem_cases other member with equal | elsewhere
    · subst equal
      rw [between_append_self ⟨source, target⟩,
        ← bundles.carried edge (by simp)]
    · rw [between_append_of_ne (elsewhere_ne other elsewhere)]
      apply bundles.carried
      rcases elsewhere with inBefore | inAfter
      · simp [inBefore]
      · simp [inAfter]
  case inhabited =>
    intro other member
    rcases mem_cases other member with equal | elsewhere
    · subst equal
      simp
    · apply bundles.inhabited
      rcases elsewhere with inBefore | inAfter
      · simp [inBefore]
      · simp [inAfter]
  case complete =>
    intro other member
    rcases List.mem_append.mp member with earlier | last
    · obtain ⟨found, foundMember, ends⟩ := bundles.complete other earlier
      rcases List.mem_append.mp foundMember with inBefore | inRest
      · exact ⟨found, by simp [inBefore], ends⟩
      · rcases List.mem_cons.mp inRest with equal | inAfter
        · subst equal
          exact ⟨{ found with references := found.references ++ [reference] },
            by simp, ends⟩
        · exact ⟨found, by simp [inAfter], ends⟩
    · rw [List.mem_singleton] at last
      subst last
      exact ⟨{ edge with references := edge.references ++ [other] },
        by simp, source, target⟩

/-- Bundling is kept when a reference starts the edge between its modules. -/
private theorem Bundles.append {edges : List (Edge μ)}
    {references : List (Reference μ)} {reference : Reference μ}
    (bundles : Bundles edges references)
    (absent : ∀ edge ∈ edges,
      ¬ (edge.source = reference.source ∧ edge.target = reference.target)) :
    Bundles (edges ++ [⟨reference.source, reference.target, [reference]⟩])
      (references ++ [reference]) := by
  constructor
  case distinct =>
    rw [List.pairwise_append]
    refine ⟨bundles.distinct, by simp, ?_⟩
    intro left leftMember right rightMember
    rw [List.mem_singleton] at rightMember
    subst rightMember
    exact absent left leftMember
  case carried =>
    intro edge member
    rcases List.mem_append.mp member with earlier | last
    · rw [between_append_of_ne (absent edge earlier)]
      exact bundles.carried edge earlier
    · rw [List.mem_singleton] at last
      subst last
      have nothing :
          between reference.source reference.target references = [] := by
        apply List.filter_eq_nil_iff.mpr
        intro other otherMember ends
        obtain ⟨edge, edgeMember, source, target⟩ :=
          bundles.complete other otherMember
        rw [decide_eq_true_eq] at ends
        exact absent edge edgeMember
          ⟨source.trans ends.1, target.trans ends.2⟩
      rw [between_append_self ⟨rfl, rfl⟩, nothing, List.nil_append]
  case inhabited =>
    intro edge member
    rcases List.mem_append.mp member with earlier | last
    · exact bundles.inhabited edge earlier
    · rw [List.mem_singleton] at last
      subst last
      simp
  case complete =>
    intro other member
    rcases List.mem_append.mp member with earlier | last
    · obtain ⟨edge, edgeMember, ends⟩ := bundles.complete other earlier
      exact ⟨edge, by simp [edgeMember], ends⟩
    · rw [List.mem_singleton] at last
      subst last
      exact ⟨⟨other.source, other.target, [other]⟩, by simp, rfl, rfl⟩

/-- Edges that bundle references bundle one more after it is added. -/
theorem Bundles.addReference {edges : List (Edge μ)}
    {references : List (Reference μ)} (bundles : Bundles edges references)
    (reference : Reference μ) :
    Bundles (addReference reference edges) (references ++ [reference]) := by
  rcases addReference_cases reference edges with found | missing
  · obtain ⟨before, edge, after, split, source, target, added⟩ := found
    subst split
    rw [added]
    exact bundles.extend source target
  · obtain ⟨absent, added⟩ := missing
    rw [added]
    exact bundles.append absent

theorem Bundles.addReferences {edges : List (Edge μ)}
    {references : List (Reference μ)} (bundles : Bundles edges references)
    (added : List (Reference μ)) :
    Bundles (added.foldl (fun edges reference =>
      Graph.addReference reference edges) edges) (references ++ added) := by
  induction added generalizing edges references with
  | nil => simpa using bundles
  | cons head rest ih =>
      have next := ih (bundles.addReference head)
      rw [List.append_assoc, List.singleton_append] at next
      exact next

theorem build_edges (modules : List μ) (references : List (Reference μ)) :
    (build modules references).edges =
      (kept modules references).foldl (fun edges reference =>
        addReference reference edges) [] := by
  rw [kept, List.foldl_filter]
  simp only [build, decide_eq_true_eq]

/-- The edges of a built graph bundle the references between its modules. -/
theorem build_bundles (modules : List μ) (references : List (Reference μ)) :
    Bundles (build modules references).edges (kept modules references) := by
  rw [build_edges]
  exact Bundles.nil.addReferences (kept modules references)

@[simp] theorem mem_build_modules {modules : List μ}
    {references : List (Reference μ)} {target : μ} :
    target ∈ (build modules references).modules ↔ target ∈ modules := by
  simp [build]

theorem nodup_build_modules (modules : List μ)
    (references : List (Reference μ)) :
    (build modules references).modules.Nodup :=
  nodup_eraseDups modules

/-- The references on the edges of a built graph are those that connect two of
its modules. -/
theorem mem_build_references {modules : List μ}
    {references : List (Reference μ)} {reference : Reference μ} :
    reference ∈ (build modules references).edges.flatMap (·.references) ↔
      reference.Kept modules references := by
  have bundles := build_bundles modules references
  rw [← mem_kept, List.mem_flatMap]
  constructor
  · rintro ⟨edge, member, carried⟩
    rw [bundles.carried edge member] at carried
    exact (List.mem_filter.mp carried).1
  · intro member
    obtain ⟨edge, edgeMember, source, target⟩ :=
      bundles.complete reference member
    refine ⟨edge, edgeMember, ?_⟩
    rw [bundles.carried edge edgeMember, between, List.mem_filter]
    exact ⟨member, by simp [source, target]⟩

/-! ## References to a module -/

theorem incoming_cons (modules : List μ) (edge : Edge μ) (rest : List (Edge μ))
    (target : μ) :
    incoming ⟨modules, edge :: rest⟩ target =
      (if edge.target = target then edge.references else []) ++
        incoming ⟨modules, rest⟩ target := by
  by_cases atTarget : edge.target = target <;> simp [incoming, atTarget]

/-- Adding a reference makes it, and nothing else, one more reference to its
target. -/
theorem incoming_addReference (modules : List μ) (edges : List (Edge μ))
    (reference : Reference μ) (target : μ) :
    (incoming ⟨modules, addReference reference edges⟩ target).Perm
      (incoming ⟨modules, edges⟩ target ++
        [reference].filter (·.target = target)) := by
  induction edges with
  | nil =>
      rw [addReference, incoming_cons]
      by_cases atTarget : reference.target = target <;>
        simp [incoming, atTarget]
  | cons edge rest ih =>
      rw [addReference]
      split
      next ends =>
        rw [incoming_cons, incoming_cons, ends.2]
        by_cases atTarget : reference.target = target
        · rw [if_pos atTarget, if_pos atTarget, List.append_assoc,
            List.append_assoc, List.filter_cons_of_pos (by simpa using atTarget)]
          exact List.perm_append_comm.append_left _
        · simp [atTarget]
      next =>
        rw [incoming_cons, incoming_cons, List.append_assoc]
        exact ih.append_left _

/-- After any number of references the references to a module are those that
were there and those that were added. -/
theorem incoming_addReferences (modules : List μ) (edges : List (Edge μ))
    (added : List (Reference μ)) (target : μ) :
    (incoming ⟨modules, added.foldl (fun edges reference =>
      addReference reference edges) edges⟩ target).Perm
      (incoming ⟨modules, edges⟩ target ++
        added.filter (·.target = target)) := by
  induction added generalizing edges with
  | nil => simp
  | cons reference rest ih =>
      have first := incoming_addReference modules edges reference target
      apply (ih (addReference reference edges)).trans
      apply (first.append_right _).trans
      rw [List.append_assoc, ← List.filter_append, List.singleton_append]

/-- The references to a module of a built graph are the given ones that connect
two of its modules. -/
theorem incoming_build_perm (modules : List μ) (references : List (Reference μ))
    (target : μ) :
    ((build modules references).incoming target).Perm
      ((kept modules references).filter (·.target = target)) := by
  have added := incoming_addReferences (build modules references).modules []
    (kept modules references) target
  rw [← build_edges] at added
  exact added

/-- The references to a module of a built graph. -/
theorem mem_incoming_build {modules : List μ}
    {references : List (Reference μ)} {target : μ} {reference : Reference μ} :
    reference ∈ (build modules references).incoming target ↔
      reference.Kept modules references ∧ reference.target = target := by
  rw [(incoming_build_perm modules references target).mem_iff, List.mem_filter,
    mem_kept, decide_eq_true_eq]

/-! ## Re-exports -/

/-- The re-exports of a built graph. -/
theorem mem_forwarding_build {modules : List μ}
    {references : List (Reference μ)} {reference : Reference μ} :
    reference ∈ (build modules references).forwarding ↔
      reference.Kept modules references ∧ reference.kind.forwards = true := by
  rw [forwarding, List.mem_filter, mem_build_references]

end Graph

end ExportAudit
