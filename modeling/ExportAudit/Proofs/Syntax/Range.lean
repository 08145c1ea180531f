import Mathlib.Data.List.Pairwise
import ExportAudit.Proofs.Syntax.Position

/-!
# Ranges in a syntax tree

The nodes of a syntax tree cover ranges of a text.  In a tree whose nodes lie
within their parents and after their earlier siblings, a node starts no earlier
than the nodes that a walk visits before it.
-/

namespace ExportAudit.Node

/-- The nodes of a tree lie in order: each starts no later than it stops, within
its parent, and after its earlier siblings. -/
structure IsOrdered (root : Node) : Prop where
  ranges : ∀ parent node, root.Occurs parent node → node.start ≤ node.stop
  nested : ∀ parent node, root.Occurs (some parent) node →
    parent.start ≤ node.start ∧ node.stop ≤ parent.stop
  siblings : ∀ parent node, root.Occurs parent node →
    node.children.Pairwise fun left right => left.stop ≤ right.start

variable {root node child : Node} {parent : Option Node}

/-- A walk meets exactly the nodes that occur in a tree. -/
theorem mem_preorder : node ∈ root.preorder ↔ ∃ parent, root.Occurs parent node := by
  rw [← walk_eq_preorder, walk, List.mem_map]
  constructor
  · rintro ⟨visit, visited, node_eq⟩
    exact ⟨visit.parent, node_eq ▸ mem_visits.mp visited⟩
  · rintro ⟨parent, occurs⟩
    exact ⟨⟨parent, node⟩, mem_visits.mpr occurs, rfl⟩

/-- What occurs in a child occurs in the tree, enclosed by the same node. -/
theorem Occurs.of_child (member : child ∈ root.children)
    (occurs : child.Occurs parent node) :
    root.Occurs (some (parent.getD root)) node := by
  induction occurs with
  | root => exact .child .root member
  | child _ below ih => exact .child ih below

theorem IsOrdered.of_mem (ordered : root.IsOrdered)
    (member : child ∈ root.children) : child.IsOrdered where
  ranges := fun _ _ occurs => ordered.ranges _ _ (occurs.of_child member)
  nested := fun _ _ occurs => ordered.nested _ _ (occurs.of_child member)
  siblings := fun _ _ occurs => ordered.siblings _ _ (occurs.of_child member)

/-- All nodes of a tree start within its range. -/
theorem IsOrdered.starts_within (ordered : root.IsOrdered) :
    ∀ node ∈ root.preorder, root.start ≤ node.start ∧ node.start ≤ root.stop := by
  induction root using Node.treeInduction with
  | step root ih =>
    intro node listed
    rw [preorder_eq, preorderAll_eq_flatMap] at listed
    cases listed with
    | head => exact ⟨Nat.le_refl _, ordered.ranges _ _ .root⟩
    | tail _ below =>
        obtain ⟨child, member, inside⟩ := List.mem_flatMap.mp below
        have outer := ordered.nested _ _ (.child .root member)
        have inner := ih child member (ordered.of_mem member) node inside
        exact ⟨outer.1.trans inner.1, inner.2.trans outer.2⟩

/-- A walk meets the nodes of a tree by ascending starts. -/
theorem IsOrdered.starts_ascend (ordered : root.IsOrdered) :
    root.preorder.Pairwise fun earlier later => earlier.start ≤ later.start := by
  induction root using Node.treeInduction with
  | step root ih =>
    have whole := ordered.starts_within
    rw [preorder_eq, preorderAll_eq_flatMap] at whole ⊢
    rw [List.pairwise_cons, List.pairwise_flatMap]
    refine ⟨fun node below => (whole node (List.mem_cons_of_mem _ below)).1,
      fun child member => ih child member (ordered.of_mem member), ?_⟩
    apply (ordered.siblings _ _ .root).imp_of_mem
    intro left right leftMember rightMember apart first inLeft second inRight
    calc first.start
        ≤ left.stop :=
          ((ordered.of_mem leftMember).starts_within first inLeft).2
      _ ≤ right.start := apart
      _ ≤ second.start :=
          ((ordered.of_mem rightMember).starts_within second inRight).1

/-- Whether a tree is ordered is seen where a walk visits it. -/
theorem isOrdered_of_visits
    (each : ∀ visit ∈ root.unpruned (fun _ => false) none,
      visit.node.start ≤ visit.node.stop ∧
      (∀ parent ∈ visit.parent, parent.start ≤ visit.node.start ∧
        visit.node.stop ≤ parent.stop) ∧
      visit.node.children.Pairwise fun left right => left.stop ≤ right.start) :
    root.IsOrdered where
  ranges := forall_occurs fun visit visited => (each visit visited).1
  nested := forall_enclosed fun visit visited => (each visit visited).2.1
  siblings := forall_occurs fun visit visited => (each visit visited).2.2

end ExportAudit.Node
