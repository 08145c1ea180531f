import ExportAudit.Proofs.Edit.Replacement
import ExportAudit.Proofs.Module.Loading
import ExportAudit.Proofs.UnusedLocal.Proposal

/-!
# Removing unused names

Removing the unused names of a module replaces disjoint ranges of its source at
once and gives a text.  Each range lies within one statement, up to the line
break after it, that binds a name which occurs no more than once.  Edits inside
another edit are dropped.  Nothing is removed from exported declarations, inside
ambient declarations, or from the top level of a script.
-/

namespace ExportAudit.Module

open Text.Utf8 (IsBoundary encode)

/-! ## Trees over a text -/

/-- The nodes of a module's tree lie in its text as they lie in the tree: each
starts and ends at boundaries of characters, within its parent, and after its
earlier siblings. -/
structure IsPlaced (module : Module) : Prop where
  text : ∃ text, module.source = encode text
  starts : ∀ parent node, module.root.Occurs parent node →
    IsBoundary module.source node.start
  stops : ∀ parent node, module.root.Occurs parent node →
    IsBoundary module.source node.stop
  ordered : ∀ parent node, module.root.Occurs parent node →
    node.start ≤ node.stop
  nested : ∀ parent node, module.root.Occurs (some parent) node →
    parent.start ≤ node.start ∧ node.stop ≤ parent.stop
  siblings : ∀ parent node, module.root.Occurs parent node →
    node.children.Pairwise fun left right => left.stop ≤ right.start

/-- The bytes between two offsets are a line feed, or a carriage return and a
line feed. -/
def IsLineBreak (source : List UInt8) (start stop : Nat) : Prop :=
  ∃ lineBreak, (lineBreak = [0x0a] ∨ lineBreak = [0x0d, 0x0a]) ∧
    lineBreak <+: source.drop start ∧ stop = start + lineBreak.length

variable {module : Module} {unused : String → Bool} {statement : Node}
  {parent : Option Node} {edit : Edit}

/-! ## Ranges of edits -/

theorem pastLineBreak_cases (source : List UInt8) (stop : Nat) :
    pastLineBreak source stop = stop ∨
      IsLineBreak source stop (pastLineBreak source stop) := by
  unfold pastLineBreak
  split
  · next rest follows =>
    exact .inr ⟨[0x0d, 0x0a], .inr rfl, ⟨rest, follows.symm⟩, rfl⟩
  · next rest follows =>
    exact .inr ⟨[0x0a], .inl rfl, ⟨rest, follows.symm⟩, rfl⟩
  · exact .inl rfl

theorem le_pastLineBreak (source : List UInt8) (stop : Nat) :
    stop ≤ pastLineBreak source stop := by
  unfold pastLineBreak
  split <;> omega

theorem isBoundary_pastLineBreak {source : List UInt8} {stop : Nat}
    (boundary : IsBoundary source stop) :
    IsBoundary source (pastLineBreak source stop) := by
  unfold pastLineBreak
  split
  · next rest follows =>
    have feed : source.drop (stop + 1) = 0x0a :: rest := by
      rw [← List.drop_drop, follows]
      rfl
    exact (boundary.succ follows (by decide)).succ feed (by decide)
  · next rest follows => exact boundary.succ follows (by decide)
  · exact boundary

/-- An edit replaces a range of characters within a statement and the line break
after it. -/
structure EditsWithin (module : Module) (statement : Node) (edit : Edit) :
    Prop where
  start : statement.start ≤ edit.start
  range : edit.start ≤ edit.stop
  stop : edit.stop ≤ statement.stop ∨
    IsLineBreak module.source statement.stop edit.stop
  boundaries : IsBoundary module.source edit.start ∧
    IsBoundary module.source edit.stop

theorem IsPlaced.removal_within (placed : module.IsPlaced)
    (occurs : module.root.Occurs parent statement) :
    module.EditsWithin statement (module.removal statement) := by
  have ordered := placed.ordered _ _ occurs
  have past := pastLineBreak_cases module.source statement.stop
  exact ⟨Nat.le_refl _, Nat.le_trans ordered (le_pastLineBreak _ _),
    past.imp Nat.le_of_eq id, placed.starts _ _ occurs,
    isBoundary_pastLineBreak (placed.stops _ _ occurs)⟩

/-- An edit from the start of one child of a statement to the end of the same or
a later one stays within the statement. -/
theorem IsPlaced.children_within (placed : module.IsPlaced)
    (occurs : module.root.Occurs parent statement) {first last : Node}
    (firstChild : first ∈ statement.children)
    (lastChild : last ∈ statement.children)
    (inOrder : first = last ∨ first.stop ≤ last.start)
    (start : edit.start = first.start) (stop : edit.stop = last.stop) :
    module.EditsWithin statement edit := by
  have firstOccurs := Node.Occurs.child occurs firstChild
  have lastOccurs := Node.Occurs.child occurs lastChild
  have firstOrdered := placed.ordered _ _ firstOccurs
  have lastOrdered := placed.ordered _ _ lastOccurs
  refine ⟨start ▸ (placed.nested _ _ firstOccurs).1, ?_,
    .inl (stop ▸ (placed.nested _ _ lastOccurs).2),
    start ▸ placed.starts _ _ firstOccurs, stop ▸ placed.stops _ _ lastOccurs⟩
  rw [start, stop]
  rcases inOrder with rfl | before
  · exact firstOrdered
  · omega

theorem eq_or_before_of_ends {nodes : List Node} {first last : Node}
    (ordered : nodes.Pairwise fun left right => left.stop ≤ right.start)
    (isFirst : nodes.head? = some first)
    (isLast : nodes.getLast? = some last) :
    first = last ∨ first.stop ≤ last.start := by
  cases nodes with
  | nil => cases isFirst
  | cons head rest =>
      cases isFirst
      have member := List.mem_of_getLast? isLast
      rcases List.mem_cons.mp member with same | later
      · exact .inl same.symm
      · exact .inr ((List.pairwise_cons.mp ordered).1 last later)

/-- A proposed edit stays within its statement and the line break after it. -/
theorem IsPlaced.candidateEdit?_within (placed : module.IsPlaced)
    (occurs : module.root.Occurs parent statement)
    (proposed : module.candidateEdit? unused statement = some edit) :
    module.EditsWithin statement edit := by
  unfold candidateEdit? at proposed
  split at proposed
  · obtain ⟨clause, _, clause_eq, _, _, rfl | rfl⟩ :=
      importEdit?_cases proposed
    · exact placed.removal_within occurs
    · have child : clause ∈ statement.children :=
        List.mem_of_mem_filter (List.mem_of_find?_eq_some clause_eq)
      exact placed.children_within occurs child child (.inl rfl) rfl rfl
  · split at proposed
    · obtain ⟨_, rfl | ⟨first, last, isFirst, isLast, rfl⟩⟩ :=
        variableEdit?_cases proposed
      · exact placed.removal_within occurs
      · have children : (statement.namedChildren.filter
            (·.kind = "variable_declarator")).Sublist statement.children :=
          List.filter_sublist.trans List.filter_sublist
        have inOrder := eq_or_before_of_ends
          ((placed.siblings _ _ occurs).sublist children) isFirst isLast
        exact placed.children_within occurs
          (children.subset (List.mem_of_head? isFirst))
          (children.subset (List.mem_of_getLast? isLast)) inOrder rfl rfl
    · obtain ⟨_, _, _, rfl⟩ := declarationEdit?_cases proposed
      exact placed.removal_within occurs

/-! ## Statements that are edited -/

/-- The edits proposed for the statements of a module. -/
def proposedEdits (module : Module) : List Edit :=
  module.candidates.filterMap
    (module.candidateEdit? (isUnused module.identifiers module.hasMarkup))

theorem unusedLocalEdits_eq (module : Module) :
    module.unusedLocalEdits = Edit.keep module.proposedEdits := rfl

/-- What an edit removes names from: a statement below its ancestors that binds a
name which occurs no more than once, is not exported, does not stand in an
ambient declaration and, in a script, does not stand at the top level. -/
structure RemovesFrom (module : Module) (edit : Edit) (ancestors : List Node)
    (statement : Node) : Prop where
  below : module.root.OccursBelow ancestors statement
  kind : statement.BindsLocals
  within : module.EditsWithin statement edit
  unused : ∃ name, statement.Binds name ∧
    module.occurrences (module.text name) ≤ 1
  notExported : ∀ parent ∈ ancestors.head?, parent.kind ≠ "export_statement"
  notAmbient : ∀ ancestor ∈ ancestors, ancestor.kind ≠ "ambient_declaration"
  notGlobal : module.isScript = true →
    ∀ parent ∈ ancestors.head?, parent.kind ≠ "program"

theorem occurrences_le_one_of_isUnused {hasMarkup : Bool} {name : String}
    (known : isUnused module.identifiers hasMarkup name = true) :
    module.occurrences name ≤ 1 := by
  unfold isUnused at known
  split at known
  · cases known
  · exact of_decide_eq_true known

/-- The statements that may bind a name that can be removed. -/
theorem isCandidate_iff {script : Bool} {visit : Visit} :
    isCandidate script visit = true ↔
      (∀ parent ∈ visit.parent, parent.kind ≠ "export_statement") ∧
      (script = true → ∀ parent ∈ visit.parent, parent.kind ≠ "program") ∧
      (visit.node.kind = "import_statement" ∨
        visit.node.kind ∈ declarationKinds ∨
        visit.node.kind ∈ variableKinds ∧
          ∀ parent ∈ visit.parent, parent.kind ∉ loopKinds) := by
  unfold isCandidate
  cases visit.parent with
  | none => simp [or_assoc]
  | some parent =>
      simp only [Option.map_some, ne_eq, Option.some.injEq, Option.any_some,
        Bool.and_eq_true, Bool.or_eq_true, Bool.not_eq_true', decide_eq_true_eq,
        decide_eq_false_iff_not, Bool.and_eq_false_imp, Option.mem_some_iff,
        forall_eq', and_assoc, or_assoc]

theorem IsPlaced.exists_statement (placed : module.IsPlaced)
    (proposed : edit ∈ module.proposedEdits) :
    ∃ ancestors statement, module.RemovesFrom edit ancestors statement := by
  obtain ⟨statement, member, proposed⟩ := List.mem_filterMap.mp proposed
  obtain ⟨visit, visited, rfl⟩ := List.mem_map.mp member
  obtain ⟨visited, candidate⟩ := List.mem_filter.mp visited
  obtain ⟨notExported, notGlobal, kind⟩ := isCandidate_iff.mp candidate
  have kind : visit.node.BindsLocals := kind.imp_right (.imp_right And.left)
  obtain ⟨ancestors, below, nearest, unpruned⟩ :=
    Node.exists_ancestors visit visited
  obtain ⟨name, binds, isUnused⟩ := bindsUnused_of_candidateEdit? kind proposed
  refine ⟨ancestors, visit.node, below, kind,
    placed.candidateEdit?_within below.occurs proposed,
    ⟨name, binds, occurrences_le_one_of_isUnused isUnused⟩, ?_, ?_, ?_⟩
  · rw [nearest]
    exact notExported
  · intro ancestor listed ambient
    exact unpruned ancestor listed (decide_eq_true ambient)
  · rw [nearest]
    exact notGlobal

/-! ## The text that is left -/

/-- Removing the unused names of a module gives a text in which disjoint ranges
of the source are replaced and every other byte stays; the ranges are those of
the edits that survive.  Every other proposed edit starts inside a surviving one.
A surviving edit removes names from one statement. -/
theorem IsPlaced.removeUnusedLocals (placed : module.IsPlaced) :
    ∃ text survivors dropped,
      module.removeUnusedLocals? = some (text, survivors.length) ∧
      Edit.Replaces 0 survivors module.source (encode text) ∧
      survivors.Pairwise (fun left right => left.stop ≤ right.start) ∧
      module.proposedEdits.Perm (survivors ++ dropped) ∧
      (∀ edit ∈ dropped, ∃ survivor ∈ survivors, edit.StartsInside survivor) ∧
      ∀ edit ∈ survivors, ∃ ancestors statement,
        module.RemovesFrom edit ancestors statement := by
  obtain ⟨dropped, parts, inside⟩ := Edit.exists_dropped module.proposedEdits
  have proposed : ∀ edit ∈ module.unusedLocalEdits,
      edit ∈ module.proposedEdits := fun edit member =>
    parts.mem_iff.mpr (List.mem_append_left _ member)
  have within : ∀ edit ∈ module.proposedEdits,
      ∃ statement, module.EditsWithin statement edit := by
    intro edit member
    obtain ⟨_, statement, removes⟩ := placed.exists_statement member
    exact ⟨statement, removes.within⟩
  have ranges : ∀ edit ∈ module.proposedEdits, edit.start ≤ edit.stop := by
    intro edit member
    obtain ⟨_, inside⟩ := within edit member
    exact inside.range
  have boundaries : ∀ edit ∈ module.unusedLocalEdits,
      IsBoundary module.source edit.start ∧
        IsBoundary module.source edit.stop := by
    intro edit member
    obtain ⟨_, inside⟩ := within edit (proposed edit member)
    exact inside.boundaries
  have inOrder : Edit.InOrder 0 module.unusedLocalEdits :=
    Edit.inOrder_keep ranges
  have replaces : Edit.Replaces 0 module.unusedLocalEdits module.source _ :=
    Edit.replaces_applyAll inOrder fun edit member =>
      (boundaries edit member).2.le_length
  obtain ⟨original, source⟩ := placed.text
  obtain ⟨text, result⟩ := @Edit.Replaces.exists_text _ _ _ _ [] replaces rfl
    (source ▸ IsBoundary.zero original) boundaries
  refine ⟨text, module.unusedLocalEdits, dropped, ?_, result ▸ replaces,
    inOrder.pairwise, parts, inside, fun edit member =>
      placed.exists_statement (proposed edit member)⟩
  rw [removeUnusedLocals?, withoutUnusedLocals?, result,
    Text.Utf8.decode?_encode, Option.map_some]

/-- Whether a node is placed is seen where a walk visits it. -/
theorem isPlaced_of_visits {text : String} (source : module.source = encode text)
    (each : ∀ visit ∈ module.root.unpruned (fun _ => false) none,
      (∀ offset ∈ [visit.node.start, visit.node.stop],
        (encode (String.ofList (text.toList.take offset))).length = offset) ∧
      visit.node.start ≤ visit.node.stop ∧
      (∀ parent ∈ visit.parent, parent.start ≤ visit.node.start ∧
        visit.node.stop ≤ parent.stop) ∧
      visit.node.children.Pairwise fun left right => left.stop ≤ right.start) :
    module.IsPlaced := by
  have boundary : ∀ offset,
      (encode (String.ofList (text.toList.take offset))).length = offset →
        IsBoundary module.source offset := by
    intro offset size
    rw [source]
    exact size ▸ IsBoundary.take text offset
  constructor
  case text => exact ⟨text, source⟩
  case starts =>
    exact Node.forall_occurs fun visit visited =>
      boundary _ ((each visit visited).1 _ (by simp))
  case stops =>
    exact Node.forall_occurs fun visit visited =>
      boundary _ ((each visit visited).1 _ (by simp))
  case ordered =>
    exact Node.forall_occurs fun visit visited => (each visit visited).2.1
  case nested =>
    exact Node.forall_enclosed fun visit visited =>
      (each visit visited).2.2.1
  case siblings =>
    exact Node.forall_occurs fun visit visited => (each visit visited).2.2.2

/-! ### A local inside an unused function -/

/-- A module with an unused function that declares an unused variable. -/
def nested : Module :=
  ⟨⟨["a.ts"]⟩, encode "import 'x';\nfunction f() \x7b let a; \x7d\n",
    .typescript,
    .named "program" 0 36 none [
      .named "import_statement" 0 11 none [
        .named "string" 7 10 "source" []],
      .named "function_declaration" 12 35 none [
        .named "identifier" 21 22 "name" [],
        .named "statement_block" 25 35 "body" [
          .named "lexical_declaration" 27 33 none [
            .named "variable_declarator" 31 32 none [
              .named "identifier" 31 32 "name" []]]]]]⟩

theorem isPlaced_nested : nested.IsPlaced :=
  isPlaced_of_visits rfl (by decide)

theorem proposedEdits_nested :
    nested.proposedEdits = [⟨12, 36, ""⟩, ⟨27, 33, ""⟩] := by
  unfold proposedEdits candidates candidatesIn
  rw [traverse_eq_flatMap]
  unfold identifiers hasMarkup
  rw [nodes_eq]
  decide

theorem keep_nested :
    Edit.keep nested.proposedEdits = [⟨12, 36, ""⟩] := by
  rw [proposedEdits_nested, Edit.keep, List.mergeSort_of_pairwise (by decide)]
  decide

/-- The variable goes with the function around it, in one edit. -/
theorem removeUnusedLocals_nested :
    nested.removeUnusedLocals? = some ("import 'x';\n", 1) ∧
    nested.IsPlaced ∧
    ∃ text survivors dropped,
      nested.removeUnusedLocals? = some (text, survivors.length) ∧
      Edit.Replaces 0 survivors nested.source (encode text) ∧
      survivors.Pairwise (fun left right => left.stop ≤ right.start) ∧
      nested.proposedEdits.Perm (survivors ++ dropped) ∧
      (∀ edit ∈ dropped, ∃ survivor ∈ survivors, edit.StartsInside survivor) ∧
      ∀ edit ∈ survivors, ∃ ancestors statement,
        nested.RemovesFrom edit ancestors statement := by
  refine ⟨?_, isPlaced_nested, isPlaced_nested.removeUnusedLocals⟩
  have left : Edit.applyAll [⟨12, 36, ""⟩] nested.source =
      encode "import 'x';\n" := by decide
  rw [removeUnusedLocals?, withoutUnusedLocals?, unusedLocalEdits_eq,
    keep_nested, left, Text.Utf8.decode?_encode]
  rfl

end ExportAudit.Module
