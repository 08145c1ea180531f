import ExportAudit.Syntax.Node

/-!
# Walking a syntax tree

A walk visits the nodes of a tree from a stack of nodes still to be visited.
It takes the node on top, puts its children in its place, and so meets each
node before its children and earlier siblings before later ones.  A node that
is pruned is skipped together with everything below it.
-/

namespace ExportAudit

/-- A node on a walk, with the node that encloses it. -/
structure Visit where
  parent : Option Node
  node : Node

namespace Visit

/-- The visits of the children of a node. -/
def children (visit : Visit) : List Visit :=
  visit.node.children.map fun child => ⟨some visit.node, child⟩

/-- How many nodes are still to be visited from a stack. -/
def pending (stack : List Visit) : Nat := Node.sizeAll (stack.map (·.node))

theorem pending_children_append (visit : Visit) (rest : List Visit) :
    pending (visit.children ++ rest) + 1 = pending (visit :: rest) := by
  have nodes : visit.children.map (·.node) = visit.node.children := by
    simp [children, Function.comp_def]
  simp only [pending, List.map_append, nodes, Node.sizeAll_append,
    List.map_cons, Node.sizeAll, Node.size_eq]
  omega

end Visit

/-- Visit the nodes below a stack, in order, without pruned ones. -/
def traverse (prune : Node → Bool) : List Visit → List Visit
  | [] => []
  | visit :: rest =>
      if prune visit.node then traverse prune rest
      else visit :: traverse prune (visit.children ++ rest)
termination_by stack => Visit.pending stack
decreasing_by
  · have step := Visit.pending_children_append visit rest
    simp only [Visit.pending, List.map_append, Node.sizeAll_append] at step ⊢
    omega
  · have step := Visit.pending_children_append visit rest
    omega

namespace Node

/-- The visits of all nodes of a tree. -/
def visits (root : Node) : List Visit := traverse (fun _ => false) [⟨none, root⟩]

/-- All nodes of a tree in the order of a walk. -/
def walk (root : Node) : List Node := root.visits.map (·.node)

end Node

end ExportAudit
