import ExportAudit.Proofs.Syntax.Position
import ExportAudit.Proofs.UnusedLocal.Removal

/-!
# Which statements are considered

Unused names are looked for in the statements that a walk without ambient
declarations meets and that bind names which may be removed.  Whether a node is
such a statement depends on its kind, on the kind of the node that encloses it,
and on whether an ambient declaration stands above it.
-/

namespace ExportAudit

/-- A node is a statement whose names may be removed, by its own kind and that
of the node that encloses it: it is not exported, does not stand at the top
level of a script, and is an import, a declaration, or a variable declaration
outside the header of a loop. -/
structure Node.MayBind (node : Node) (script : Bool) (parent : Option Node) :
    Prop where
  notExported : ∀ outer ∈ parent, outer.kind ≠ "export_statement"
  notGlobal : script = true → ∀ outer ∈ parent, outer.kind ≠ "program"
  binds : node.kind = "import_statement" ∨
    node.kind ∈ Module.declarationKinds ∨
    node.kind ∈ Module.variableKinds ∧
      ∀ outer ∈ parent, outer.kind ∉ Module.loopKinds

/-- The node at a position of a tree is a statement whose names may be removed,
and neither it nor a node above it is an ambient declaration. -/
structure Node.IsCandidateAt (root : Node) (script : Bool)
    (position : List Nat) : Prop where
  notAmbient : ∀ above, above <+: position → ∀ node ∈ root.at? above,
    node.kind ≠ "ambient_declaration"
  mayBind : ∃ node ∈ root.at? position,
    node.MayBind script (root.parentAt? position)

namespace Module

variable {root : Node} {script : Bool} {position : List Nat}

theorem isCandidate_iff_mayBind {visit : Visit} :
    isCandidate script visit = true ↔ visit.node.MayBind script visit.parent := by
  rw [isCandidate_iff]
  constructor
  · rintro ⟨notExported, notGlobal, binds⟩
    exact ⟨notExported, notGlobal, binds⟩
  · intro mayBind
    exact ⟨mayBind.notExported, mayBind.notGlobal, mayBind.binds⟩

/-- A walk without ambient declarations selects by the visits at open
positions. -/
theorem isCandidateAt_iff :
    root.IsCandidateAt script position ↔
      root.IsOpenAt isAmbient position ∧
        (root.visitAt? none position).any (isCandidate script) = true := by
  have selected : (root.visitAt? none position).any (isCandidate script) = true ↔
      ∃ node ∈ root.at? position,
        node.MayBind script (root.parentAt? position) := by
    rw [Node.visitAt?_none, Option.any_map, Option.any_eq_true]
    simp only [isCandidate_iff_mayBind, Option.mem_def]
  have isOpen : root.IsOpenAt isAmbient position ↔ ∀ above, above <+: position →
      ∀ node ∈ root.at? above, node.kind ≠ "ambient_declaration" := by
    simp only [Node.IsOpenAt, isAmbient, decide_eq_false_iff_not, ne_eq]
  rw [selected, isOpen]
  constructor
  · intro candidate
    exact ⟨candidate.notAmbient, candidate.mayBind⟩
  · rintro ⟨notAmbient, mayBind⟩
    exact ⟨notAmbient, mayBind⟩

instance : Decidable (root.IsCandidateAt script position) :=
  decidable_of_iff _ isCandidateAt_iff.symm

/-- Selecting among values that are listed at places selects among the
places. -/
theorem map_some_filter {α β : Type} {values : List α} {places : List β}
    {valueAt : β → Option α} (select : α → Bool)
    (listed : values.map some = places.map valueAt) :
    (values.filter select).map some =
      (places.filter fun place => (valueAt place).any select).map valueAt :=
  calc (values.filter select).map some
      = (values.map some).filter (·.any select) := by
        rw [List.filter_map]
        rfl
    _ = (places.map valueAt).filter (·.any select) := by rw [listed]
    _ = _ := List.filter_map

/-- The considered statements are the nodes at the positions that qualify, in
ascending order. -/
theorem candidatesIn_eq_positions (root : Node) (script : Bool) :
    (candidatesIn root script).map some =
      (root.positions.filter (root.IsCandidateAt script ·)).map root.at? := by
  have selected := map_some_filter (isCandidate script)
    (Node.traverse_eq_positions isAmbient root)
  have qualify (position : List Nat) :
      ((root.visitAt? none position).any (isCandidate script) &&
        decide (root.IsOpenAt isAmbient position)) =
          decide (root.IsCandidateAt script position) := by
    rw [Bool.eq_iff_iff, Bool.and_eq_true, decide_eq_true_eq, decide_eq_true_eq,
      isCandidateAt_iff, and_comm]
  rw [List.filter_filter, funext qualify] at selected
  have nodes := congrArg (List.map (Option.map Visit.node)) selected
  simpa [candidatesIn, Function.comp_def, Node.map_node_visitAt?] using nodes

/-- A walk visits the nodes of a tree in preorder, which lists the nodes at all
positions in ascending order, hence each once.  The statements in which unused
names are looked for are those of this list at the positions that qualify. -/
theorem walks_by_position (root : Node) (script : Bool) :
    root.walk = root.preorder ∧
      root.preorder.map some = root.positions.map root.at? ∧
      root.positions.Pairwise (· < ·) ∧
      (∀ position,
        position ∈ root.positions ↔ (root.at? position).isSome = true) ∧
      (candidatesIn root script).map some =
        (root.positions.filter (root.IsCandidateAt script ·)).map root.at? :=
  ⟨Node.walk_eq_preorder root, Node.preorder_eq_positions root,
    Node.positions_ascending root, fun _ => Node.mem_positions,
    candidatesIn_eq_positions root script⟩

end Module

end ExportAudit
