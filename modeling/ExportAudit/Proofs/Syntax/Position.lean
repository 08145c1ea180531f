import Mathlib.Data.List.Basic
import Mathlib.Data.List.Infix
import ExportAudit.Proofs.Syntax.Walk

/-!
# Positions in a syntax tree

The position of a node is the list of the child indices on the way to it from
the root.  Positions tell apart nodes that are equal, and their lexicographic
order is the order of the tree: a node comes before the nodes below it, and
these come before its later siblings.

Preorder lists the nodes by ascending positions.  A walk visits the nodes of a
tree in this order, each with the node that encloses it, and leaves out the
positions at or below a pruned node.
-/

namespace ExportAudit.Node

/-- The node to which child indices lead from the root of a tree. -/
def at? (root : Node) : List Nat → Option Node
  | [] => some root
  | index :: rest => root.children[index]?.bind fun child => child.at? rest

/-- The node that encloses the node at a position. -/
def parentAt? (root : Node) : List Nat → Option Node
  | [] => none
  | index :: rest => root.at? (index :: rest).dropLast

mutual

/-- The positions in a tree, each before those below it, from left to right. -/
def positions : Node → List (List Nat)
  | ⟨_, _, _, _, _, _, children⟩ => [] :: positionsAll 0 children

/-- The positions in the trees of children, of which the first has the given
index. -/
def positionsAll (index : Nat) : List Node → List (List Nat)
  | [] => []
  | node :: rest =>
      node.positions.map (index :: ·) ++ positionsAll (index + 1) rest

end

/-- Neither the node at a position nor one that encloses it is pruned. -/
def IsOpenAt (root : Node) (prune : Node → Bool) (position : List Nat) : Prop :=
  ∀ above, above <+: position → ∀ node ∈ root.at? above, prune node = false

instance (root : Node) (prune : Node → Bool) (position : List Nat) :
    Decidable (root.IsOpenAt prune position) :=
  decidable_of_iff
    (∀ above ∈ position.inits, ∀ node ∈ root.at? above, prune node = false)
    (by simp only [List.mem_inits, IsOpenAt])

variable {root node child : Node} {prune : Node → Bool} {index : Nat}
  {position rest : List Nat}

/-! ## Steps down -/

theorem at?_cons (child_eq : root.children[index]? = some child)
    (rest : List Nat) : root.at? (index :: rest) = child.at? rest := by
  rw [at?, child_eq, Option.bind_some]

/-- What encloses a node below a child is that child or below it. -/
theorem parentAt?_cons (child_eq : root.children[index]? = some child)
    (rest : List Nat) :
    root.parentAt? (index :: rest) =
      if rest = [] then some root else child.parentAt? rest := by
  cases rest with
  | nil => rfl
  | cons second others =>
      rw [parentAt?, List.dropLast_cons_cons, at?_cons child_eq, if_neg nofun,
        parentAt?]

theorem isOpenAt_nil : root.IsOpenAt prune [] ↔ prune root = false := by
  constructor
  · intro isOpen
    exact isOpen [] List.nil_prefix root rfl
  · intro kept above begins node found
    rw [List.prefix_nil.mp begins] at found
    cases found
    exact kept

theorem isOpenAt_cons (child_eq : root.children[index]? = some child)
    (rest : List Nat) :
    root.IsOpenAt prune (index :: rest) ↔
      prune root = false ∧ child.IsOpenAt prune rest := by
  constructor
  · intro isOpen
    constructor
    · exact isOpen [] List.nil_prefix root rfl
    · intro above begins node found
      apply isOpen (index :: above) ((List.prefix_cons_inj index).mpr begins)
      rwa [at?_cons child_eq]
  · rintro ⟨kept, isOpen⟩ above begins node found
    cases above with
    | nil =>
        cases found
        exact kept
    | cons first others =>
        obtain ⟨rfl, later⟩ := List.cons_prefix_cons.mp begins
        rw [at?_cons child_eq] at found
        exact isOpen others later node found

/-! ## All positions -/

theorem positionsAll_eq (index : Nat) (nodes : List Node) :
    positionsAll index nodes =
      (nodes.zipIdx index).flatMap fun entry =>
        entry.1.positions.map (entry.2 :: ·) := by
  induction nodes generalizing index with
  | nil => rw [positionsAll, List.zipIdx_nil, List.flatMap_nil]
  | cons node rest ih =>
      rw [positionsAll, ih, List.zipIdx_cons, List.flatMap_cons]

theorem positions_eq (node : Node) :
    node.positions =
      [] :: node.children.zipIdx.flatMap fun entry =>
        entry.1.positions.map (entry.2 :: ·) := by
  cases node
  rw [positions, positionsAll_eq]

theorem mem_positions_cons :
    index :: rest ∈ root.positions ↔
      ∃ child, root.children[index]? = some child ∧ rest ∈ child.positions := by
  rw [positions_eq root]
  simp only [List.mem_cons, List.cons_ne_nil, false_or, List.mem_flatMap,
    Prod.exists, List.mem_zipIdx_iff_getElem?, List.mem_map,
    List.cons.injEq]
  constructor
  · rintro ⟨child, _, child_eq, _, listed, same, rest_eq⟩
    subst same rest_eq
    exact ⟨child, child_eq, listed⟩
  · rintro ⟨child, child_eq, listed⟩
    exact ⟨child, index, child_eq, rest, listed, rfl, rfl⟩

/-- The positions of a tree are the lists of indices that lead to a node. -/
theorem mem_positions :
    position ∈ root.positions ↔ (root.at? position).isSome = true := by
  induction position generalizing root with
  | nil =>
      rw [positions_eq]
      exact iff_of_true (List.mem_cons_self ..) rfl
  | cons index rest ih =>
      rw [mem_positions_cons, at?]
      cases root.children[index]? with
      | none => simp
      | some child => simp [ih]

theorem pairwise_zipIdx (index : Nat) (nodes : List Node) :
    (nodes.zipIdx index).Pairwise fun left right => left.2 < right.2 := by
  induction nodes generalizing index with
  | nil => exact .nil
  | cons node rest ih =>
      rw [List.zipIdx_cons, List.pairwise_cons]
      exact ⟨fun entry later => List.le_snd_of_mem_zipIdx later, ih (index + 1)⟩

/-- Positions are listed in ascending order, hence each once. -/
theorem positions_ascending (root : Node) :
    root.positions.Pairwise (· < ·) := by
  induction root using Node.treeInduction with
  | step node ih =>
    rw [positions_eq, List.pairwise_cons, List.pairwise_flatMap]
    refine ⟨?_, ?_, ?_⟩
    · intro position listed
      obtain ⟨entry, _, inside⟩ := List.mem_flatMap.mp listed
      obtain ⟨rest, _, rfl⟩ := List.mem_map.mp inside
      exact List.nil_lt_cons _ _
    · intro entry listed
      have child := List.mem_of_getElem? (List.mem_zipIdx_iff_getElem?.mp listed)
      rw [List.pairwise_map]
      apply (ih entry.1 child).imp
      intro left right before
      exact List.cons_lt_cons_iff.mpr (.inr ⟨rfl, before⟩)
    · apply (pairwise_zipIdx 0 node.children).imp
      intro left right before first inLeft second inRight
      obtain ⟨_, _, rfl⟩ := List.mem_map.mp inLeft
      obtain ⟨_, _, rfl⟩ := List.mem_map.mp inRight
      exact List.cons_lt_cons_iff.mpr (.inl before)

/-! ## Walks by position -/

/-- The visit at a position of a tree whose root is visited from a parent. -/
def visitAt? (parent : Option Node) (root : Node) (position : List Nat) :
    Option Visit :=
  (root.at? position).map fun node =>
    ⟨if position = [] then parent else root.parentAt? position, node⟩

theorem visitAt?_cons (parent : Option Node)
    (child_eq : root.children[index]? = some child) (rest : List Nat) :
    root.visitAt? parent (index :: rest) = child.visitAt? (some root) rest := by
  rw [visitAt?, visitAt?, at?_cons child_eq, if_neg (List.cons_ne_nil _ _),
    parentAt?_cons child_eq]

theorem visitAt?_none (root : Node) (position : List Nat) :
    root.visitAt? none position =
      (root.at? position).map (⟨root.parentAt? position, ·⟩) := by
  cases position <;> rfl

theorem map_node_visitAt? (parent : Option Node) (root : Node)
    (position : List Nat) :
    (root.visitAt? parent position).map (·.node) = root.at? position := by
  rw [visitAt?, Option.map_map]
  exact Option.map_id'

/-- The visits of a tree without pruned parts are those at its open positions,
in order. -/
theorem unpruned_eq_positions (prune : Node → Bool) (parent : Option Node)
    (root : Node) :
    (root.unpruned prune parent).map some =
      (root.positions.filter (root.IsOpenAt prune ·)).map
        (root.visitAt? parent) := by
  induction root using Node.treeInduction generalizing parent with
  | step node ih =>
    rw [unpruned_eq]
    cases pruned : prune node with
    | true =>
        have closed (position : List Nat) : ¬ node.IsOpenAt prune position := by
          intro isOpen
          have kept := isOpen [] List.nil_prefix node rfl
          rw [pruned] at kept
          cases kept
        simp [closed]
    | false =>
        have below : ∀ entry ∈ node.children.zipIdx,
            (entry.1.unpruned prune (some node)).map some =
              ((entry.1.positions.map (entry.2 :: ·)).filter
                (node.IsOpenAt prune ·)).map (node.visitAt? parent) := by
          intro entry listed
          have child_eq := List.mem_zipIdx_iff_getElem?.mp listed
          rw [ih entry.1 (List.mem_of_getElem? child_eq), List.filter_map,
            List.map_map]
          simp only [Function.comp_def, isOpenAt_cons child_eq, pruned, true_and,
            visitAt?_cons parent child_eq]
        have children :
            (unprunedAll prune (some node) node.children).map some =
              node.children.zipIdx.flatMap fun entry =>
                (entry.1.unpruned prune (some node)).map some := by
          rw [unprunedAll_eq_flatMap, List.map_flatMap]
          conv_lhs => rw [← List.zipIdx_map_fst 0 node.children, List.flatMap_map]
        rw [if_neg Bool.false_ne_true, List.map_cons, children,
          List.flatMap_congr below, positions_eq, List.filter_cons,
          if_pos (decide_eq_true (isOpenAt_nil.mpr pruned)), List.map_cons,
          List.filter_flatMap, List.map_flatMap]
        rfl

/-- A walk visits the open positions of a tree in ascending order. -/
theorem traverse_eq_positions (prune : Node → Bool) (root : Node) :
    (traverse prune [⟨none, root⟩]).map some =
      (root.positions.filter (root.IsOpenAt prune ·)).map
        (root.visitAt? none) := by
  rw [traverse_eq_flatMap, List.flatMap_singleton, unpruned_eq_positions]

theorem map_node_unpruned (parent : Option Node) (root : Node) :
    (root.unpruned (fun _ => false) parent).map (·.node) = root.preorder := by
  induction root using Node.treeInduction generalizing parent with
  | step node ih =>
    rw [unpruned_eq, if_neg Bool.false_ne_true, List.map_cons,
      unprunedAll_eq_flatMap, List.map_flatMap,
      List.flatMap_congr fun child member => ih child member (some node),
      preorder_eq, preorderAll_eq_flatMap]

/-- A walk visits all nodes of a tree in preorder. -/
theorem walk_eq_preorder (root : Node) : root.walk = root.preorder := by
  rw [walk, visits_eq, map_node_unpruned]

/-- Preorder lists the nodes at all positions of a tree. -/
theorem preorder_eq_positions (root : Node) :
    root.preorder.map some = root.positions.map root.at? := by
  have everywhere (position : List Nat) :
      root.IsOpenAt (fun _ => false) position := fun _ _ _ _ => rfl
  have visits := congrArg (List.map (Option.map Visit.node))
    (unpruned_eq_positions (fun _ => false) none root)
  simpa [everywhere, map_node_visitAt?, Function.comp_def,
    ← map_node_unpruned none] using visits

end ExportAudit.Node
