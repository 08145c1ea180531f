import ExportAudit.Syntax.Traversal

/-!
# What a walk visits

A walk from a stack visits the trees of the stack one after another, each in
preorder and without pruned parts.  The walk of a whole tree therefore visits
exactly the occurrences of nodes in it, each with the node that encloses it.
-/

namespace ExportAudit

/-! ## Induction on trees -/

theorem Node.sizeOf_lt_of_mem {node child : Node}
    (member : child ∈ node.children) : sizeOf child < sizeOf node := by
  have smaller := List.sizeOf_lt_of_mem member
  cases node
  simp only [Node.mk.sizeOf_spec] at smaller ⊢
  omega

/-- What passes from all children of a node to the node holds of every tree. -/
@[elab_as_elim]
theorem Node.treeInduction {property : Node → Prop} (root : Node)
    (step : ∀ node : Node, (∀ child ∈ node.children, property child) →
      property node) : property root :=
  step root fun child _ => Node.treeInduction child step
termination_by sizeOf root
decreasing_by exact Node.sizeOf_lt_of_mem ‹_›

/-! ## Walks are preorders -/

mutual

/-- The visits of a tree in preorder, without pruned parts. -/
def Node.unpruned (prune : Node → Bool) (parent : Option Node) :
    Node → List Visit
  | ⟨kind, isNamed, isMissing, start, stop, field, children⟩ =>
      let node : Node :=
        ⟨kind, isNamed, isMissing, start, stop, field, children⟩
      if prune node then []
      else ⟨parent, node⟩ :: unprunedAll prune (some node) children

/-- The visits of the trees of a list in preorder, without pruned parts. -/
def Node.unprunedAll (prune : Node → Bool) (parent : Option Node) :
    List Node → List Visit
  | [] => []
  | node :: rest =>
      node.unpruned prune parent ++ unprunedAll prune parent rest

end

theorem Node.unpruned_eq (prune : Node → Bool) (parent : Option Node)
    (node : Node) :
    node.unpruned prune parent =
      if prune node then []
      else ⟨parent, node⟩ :: unprunedAll prune (some node) node.children := by
  cases node
  rw [unpruned]

theorem Node.unprunedAll_eq_flatMap (prune : Node → Bool)
    (parent : Option Node) (nodes : List Node) :
    unprunedAll prune parent nodes =
      nodes.flatMap (unpruned prune parent) := by
  induction nodes with
  | nil => rw [unprunedAll, List.flatMap_nil]
  | cons node rest ih => rw [unprunedAll, ih, List.flatMap_cons]

theorem Node.preorderAll_eq_flatMap (nodes : List Node) :
    preorderAll nodes = nodes.flatMap preorder := by
  induction nodes with
  | nil => rw [preorderAll, List.flatMap_nil]
  | cons node rest ih => rw [preorderAll, ih, List.flatMap_cons]

/-- A walk visits the trees of its stack one after another. -/
theorem traverse_eq_flatMap (prune : Node → Bool) (stack : List Visit) :
    traverse prune stack =
      stack.flatMap fun visit => visit.node.unpruned prune visit.parent := by
  fun_induction traverse prune stack with
  | case1 => rfl
  | case2 visit rest pruned ih =>
      rw [List.flatMap_cons, ih, Node.unpruned_eq, if_pos pruned]
      rfl
  | case3 visit rest kept ih =>
      rw [List.flatMap_cons, ih, Node.unpruned_eq, if_neg kept,
        Node.unprunedAll_eq_flatMap, List.flatMap_append, Visit.children,
        List.flatMap_map]
      rfl

theorem Node.visits_eq (root : Node) :
    root.visits = root.unpruned (fun _ => false) none := by
  rw [visits, traverse_eq_flatMap, List.flatMap_singleton]

/-! ## Occurrences -/

/-- A node occurs in a tree, enclosed by its parent. -/
inductive Node.Occurs (root : Node) : Option Node → Node → Prop where
  | root : Occurs root none root
  | child {parent : Option Node} {node child : Node}
      (occurs : Occurs root parent node) (member : child ∈ node.children) :
      Occurs root (some node) child

/-- What holds of the visits on the stack and passes on from nodes that are not
pruned to their children holds of every visit of a walk. -/
theorem forall_mem_traverse {prune : Node → Bool} {property : Visit → Prop}
    {stack : List Visit} (start : ∀ visit ∈ stack, property visit)
    (inherited : ∀ visit, ¬ prune visit.node = true → property visit →
      ∀ child ∈ visit.children, property child) :
    ∀ visit ∈ traverse prune stack, property visit := by
  fun_induction traverse prune stack with
  | case1 => exact start
  | case2 visit rest _ ih =>
      exact ih fun other member => start other (List.mem_cons_of_mem _ member)
  | case3 visit rest kept ih =>
      have here := start visit (List.mem_cons_self ..)
      rw [List.forall_mem_cons]
      refine ⟨here, ih ?_⟩
      intro other member
      rcases List.mem_append.mp member with child | later
      · exact inherited visit kept here other child
      · exact start other (List.mem_cons_of_mem _ later)

theorem mem_traverse_of_mem {prune : Node → Bool} {stack : List Visit}
    {visit : Visit} (member : visit ∈ stack)
    (kept : prune visit.node = false) : visit ∈ traverse prune stack := by
  fun_induction traverse prune stack with
  | case1 => exact member
  | case2 first rest pruned ih =>
      rcases List.mem_cons.mp member with rfl | later
      · rw [kept] at pruned
        cases pruned
      · exact ih later
  | case3 first rest _ ih =>
      rcases List.mem_cons.mp member with rfl | later
      · exact List.mem_cons_self ..
      · exact List.mem_cons_of_mem _ (ih (List.mem_append_right _ later))

/-- A walk visits the children of what it visits, unless they are pruned. -/
theorem child_mem_traverse {prune : Node → Bool} {stack : List Visit}
    {visit child : Visit} (member : visit ∈ traverse prune stack)
    (below : child ∈ visit.children) (kept : prune child.node = false) :
    child ∈ traverse prune stack := by
  fun_induction traverse prune stack with
  | case1 => cases member
  | case2 first rest _ ih => exact ih member
  | case3 first rest _ ih =>
      rcases List.mem_cons.mp member with rfl | later
      · exact List.mem_cons_of_mem _
          (mem_traverse_of_mem (List.mem_append_left _ below) kept)
      · exact List.mem_cons_of_mem _ (ih later)

theorem Node.occurs_of_mem_visits {root : Node} :
    ∀ visit ∈ root.visits, root.Occurs visit.parent visit.node := by
  apply forall_mem_traverse
  · intro first member
    rw [List.mem_singleton] at member
    subst member
    exact .root
  · intro visit _ occurs child below
    obtain ⟨node, member, rfl⟩ := List.mem_map.mp below
    exact .child occurs member

theorem Node.mem_visits_of_occurs {root node : Node} {parent : Option Node}
    (occurs : root.Occurs parent node) : ⟨parent, node⟩ ∈ root.visits := by
  induction occurs with
  | root => exact mem_traverse_of_mem (List.mem_singleton_self _) rfl
  | child _ member ih =>
      exact child_mem_traverse ih (List.mem_map.mpr ⟨_, member, rfl⟩) rfl

/-- The walk of a tree visits exactly the occurrences of nodes in it. -/
theorem Node.mem_visits {root : Node} {visit : Visit} :
    visit ∈ root.visits ↔ root.Occurs visit.parent visit.node :=
  ⟨occurs_of_mem_visits visit, mem_visits_of_occurs⟩

/-- What holds of the visits of a tree in preorder holds of all occurrences of
nodes in it. -/
theorem Node.forall_occurs {root : Node}
    {property : Option Node → Node → Prop}
    (all : ∀ visit ∈ root.unpruned (fun _ => false) none,
      property visit.parent visit.node)
    (parent : Option Node) (node : Node) (occurs : root.Occurs parent node) :
    property parent node := by
  have visited := mem_visits_of_occurs occurs
  rw [visits_eq] at visited
  exact all _ visited

/-- What holds of the visits of a tree and the nodes that enclose them holds of
all nodes of the tree and their children. -/
theorem Node.forall_enclosed {root : Node} {property : Node → Node → Prop}
    (all : ∀ visit ∈ root.unpruned (fun _ => false) none,
      ∀ parent ∈ visit.parent, property parent visit.node)
    (parent node : Node) (occurs : root.Occurs (some parent) node) :
    property parent node :=
  @forall_occurs root (fun above node => ∀ parent ∈ above, property parent node)
    all (some parent) node occurs parent rfl

/-- A named node of a tree. -/
def Node.named (kind : String) (start stop : Nat) (field : Option String)
    (children : List Node) : Node :=
  ⟨kind, true, false, start, stop, field, children⟩

/-! ## Comments -/

/-- Whether a node is a comment. -/
def Node.isComment (node : Node) : Bool :=
  node.kind = "comment" || node.kind = "html_comment"

theorem Node.isComment_iff {node : Node} :
    node.isComment = true ↔
      node.kind = "comment" ∨ node.kind = "html_comment" := by
  simp [isComment]

/-- Parts that give nothing can be left out. -/
theorem flatMap_filter_eq {α β : Type} {keep : α → Bool} {give : α → List β}
    {values : List α}
    (nothing : ∀ value ∈ values, keep value = false → give value = []) :
    (values.filter keep).flatMap give = values.flatMap give := by
  induction values with
  | nil => rfl
  | cons value rest ih =>
      obtain ⟨here, later⟩ := List.forall_mem_cons.mp nothing
      cases kept : keep value with
      | true =>
          rw [List.filter_cons_of_pos kept, List.flatMap_cons, List.flatMap_cons,
            ih later]
      | false =>
          rw [List.filter_cons_of_neg (Bool.eq_false_iff.mp kept),
            List.flatMap_cons, here kept, List.nil_append, ih later]

/-! ## Ancestors -/

/-- A node occurs in a tree below its ancestors, the nearest of them first. -/
inductive Node.OccursBelow (root : Node) : List Node → Node → Prop where
  | root : OccursBelow root [] root
  | child {ancestors : List Node} {node child : Node}
      (occurs : OccursBelow root ancestors node)
      (member : child ∈ node.children) :
      OccursBelow root (node :: ancestors) child

theorem Node.OccursBelow.occurs {root node : Node} {ancestors : List Node}
    (below : root.OccursBelow ancestors node) :
    root.Occurs ancestors.head? node := by
  cases below with
  | root => exact .root
  | child occurs member => exact .child occurs.occurs member

/-- A walk meets a node below its ancestors, none of which is pruned. -/
theorem Node.exists_ancestors {root : Node} {prune : Node → Bool} :
    ∀ visit ∈ traverse prune [⟨none, root⟩], ∃ ancestors,
      root.OccursBelow ancestors visit.node ∧
        ancestors.head? = visit.parent ∧
        ∀ ancestor ∈ ancestors, ¬ prune ancestor = true := by
  apply forall_mem_traverse
  · intro first member
    rw [List.mem_singleton] at member
    subst member
    exact ⟨[], .root, rfl, nofun⟩
  · intro visit kept known child below
    obtain ⟨ancestors, occurs, _, unpruned⟩ := known
    obtain ⟨node, member, rfl⟩ := List.mem_map.mp below
    exact ⟨visit.node :: ancestors, .child occurs member, rfl,
      List.forall_mem_cons.mpr ⟨kept, unpruned⟩⟩

/-- A walk visits every node below ancestors that are not pruned. -/
theorem Node.mem_traverse_of_occursBelow {root node : Node}
    {prune : Node → Bool} {ancestors : List Node}
    (below : root.OccursBelow ancestors node)
    (unpruned : ∀ ancestor ∈ ancestors, prune ancestor = false)
    (kept : prune node = false) :
    ⟨ancestors.head?, node⟩ ∈ traverse prune [⟨none, root⟩] := by
  induction below with
  | root => exact mem_traverse_of_mem (List.mem_singleton_self _) kept
  | child _ member ih =>
      obtain ⟨here, above⟩ := List.forall_mem_cons.mp unpruned
      exact child_mem_traverse (ih above here)
        (List.mem_map.mpr ⟨_, member, rfl⟩) kept

end ExportAudit
