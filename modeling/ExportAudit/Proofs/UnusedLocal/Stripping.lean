import ExportAudit.Proofs.UnusedLocal.Pieces

/-!
# Names that are stripped

An unused name of a statement for which an edit is proposed lies in the range of
an edit that survives: that of its own statement, or that of a statement around
or inside it at which the edit was dropped.

`strips_or_copies` says when the name is gone.  It is copied back only where a
statement around its own one is rewritten and keeps the piece in which its own
statement stands.
-/

namespace ExportAudit

open Relation (ReflTransGen)
open Text.Utf8 (encode)

namespace Module

variable {module : Module} {unused : String → Bool} {statement : Node}
  {parent : Option Node} {edit : Edit}

/-! ## Statements in one tree -/

/-- Of two nodes of a tree one occurs in the other, or they are apart. -/
theorem IsPlaced.below_or_apart (placed : module.IsPlaced) {left right : Node}
    {leftParent rightParent : Option Node}
    (leftOccurs : module.root.Occurs leftParent left)
    (rightOccurs : module.root.Occurs rightParent right) :
    left.Below right ∨ right.Below left ∨ left.Apart right := by
  have fromNode : ∀ node, node.Below left →
      ∀ parent, module.root.Occurs parent node → node.Below right →
        left.Below right ∨ right.Below left ∨ left.Apart right := by
    intro node way
    induction way using ReflTransGen.head_induction_on with
    | refl => exact fun _ _ below => .inl below
    | @head node child member way ih =>
        intro parent occurs below
        rcases ReflTransGen.cases_head below with rfl | ⟨other, also, rest⟩
        · exact .inr (.inl (ReflTransGen.head member way))
        · by_cases same : child = other
          · subst same
            exact ih _ (.child occurs member) rest
          · have apart := placed.children_apart occurs member also same
            exact .inr (.inr (apart.mono
              (placed.below_liesIn (.child occurs member) way)
              (placed.below_liesIn (.child occurs also) rest)))
  exact fromNode module.root (Node.below_of_occurs leftOccurs) _ .root
    (Node.below_of_occurs rightOccurs)

/-- What occurs in a node occurs in a given child of it or apart from the
child. -/
theorem IsPlaced.child_below_or_apart (placed : module.IsPlaced)
    {node child inner : Node} (occurs : module.root.Occurs parent node)
    (member : child ∈ node.children) (below : node.Below inner)
    (different : inner ≠ node) : child.Below inner ∨ inner.Apart child := by
  rcases ReflTransGen.cases_head below with same | ⟨other, also, rest⟩
  · exact absurd same.symm different
  · by_cases same : other = child
    · subst same
      exact .inl rest
    · have apart := placed.children_apart occurs also member same
      exact .inr (apart.mono (placed.below_liesIn (.child occurs also) rest)
        (.refl child))

/-- A statement that occurs in another occurs in a given part of it or apart
from the part. -/
theorem IsPlaced.part_below_or_apart (placed : module.IsPlaced)
    {part inner : Node} (occurs : module.root.Occurs parent statement)
    (partOf : part.IsPartOf statement) (below : statement.Below inner)
    (different : inner ≠ statement) (kind : inner.BindsLocals) :
    part.Below inner ∨ inner.Apart part := by
  obtain ⟨child, member, way⟩ := partOf
  induction way with
  | refl => exact placed.child_below_or_apart occurs member below different
  | @tail middle part way passes ih =>
      have between : middle.IsPartOf statement := ⟨child, member, way⟩
      obtain ⟨_, middleOccurs⟩ := between.below.exists_occurs occurs
      rcases ih with within | apart
      · have other : inner ≠ middle := by
          rintro rfl
          exact passes.1 kind
        exact placed.child_below_or_apart middleOccurs passes.2 within other
      · exact .inr (apart.mono (.refl inner)
          (placed.child_liesIn middleOccurs passes.2))

/-! ## The name of a statement and edits -/

theorem exists_occurs_of_candidate (listed : statement ∈ module.candidates) :
    (∃ parent, module.root.Occurs parent statement) ∧ statement.BindsLocals := by
  obtain ⟨visit, visited, rfl⟩ := List.mem_map.mp listed
  obtain ⟨visited, candidate⟩ := List.mem_filter.mp visited
  obtain ⟨_, _, kind⟩ := isCandidate_iff.mp candidate
  obtain ⟨ancestors, below, _⟩ := Node.exists_ancestors visit visited
  exact ⟨⟨_, below.occurs⟩, kind.imp_right (.imp_right And.left)⟩

theorem candidateEdit?_of_leaf (leaf : statement.children = []) :
    module.candidateEdit? unused statement = none := by
  simp [candidateEdit?, importEdit?, variableEdit?, declarationEdit?,
    Node.namedChild?, Node.namedChildren, Node.childByField, leaf]

/-- A name lies in the range of the edit of its own statement. -/
theorem IsPlaced.name_within (placed : module.IsPlaced) {name : Node}
    (occurs : module.root.Occurs parent statement)
    (binds : statement.Binds name)
    (proposed : module.candidateEdit? unused statement = some edit) :
    edit.start ≤ name.start ∧ name.stop ≤ edit.stop := by
  have lies := placed.below_liesIn occurs binds.isPartOf.below
  rcases placed.removal_or_rewrites occurs proposed with
    rfl | ⟨first, last, rewrites⟩
  · exact ⟨lies.1, Nat.le_trans lies.2 (le_pastLineBreak _ _)⟩
  · rcases binds.declares_or_piece with ⟨kind, _⟩ | ⟨piece, isPiece, bound⟩
    · exact absurd kind rewrites.kind
    · obtain ⟨_, pieceOccurs⟩ := isPiece.isPartOf.below.exists_occurs occurs
      have within := rewrites.pieces piece isPiece
      have inside := placed.bound?_liesIn pieceOccurs bound
      rw [rewrites.start, rewrites.stop]
      exact ⟨Nat.le_trans within.1 inside.1, Nat.le_trans inside.2 within.2⟩

/-- An unused name is apart from all that its own statement keeps. -/
theorem IsPlaced.name_apart_of_keeps (placed : module.IsPlaced)
    {name piece : Node} (occurs : module.root.Occurs parent statement)
    (binds : statement.Binds name) (gone : unused (module.text name) = true)
    (keeps : module.Keeps unused statement piece) : name.Apart piece := by
  rcases binds.declares_or_piece with ⟨kind, _⟩ | ⟨own, isPiece, bound⟩
  · exact absurd kind (not_declaration_of_piece keeps.isPiece)
  · have different : own ≠ piece := by
      rintro rfl
      exact Bool.false_ne_true ((keeps.used name bound).symm.trans gone)
    obtain ⟨_, ownOccurs⟩ := isPiece.isPartOf.below.exists_occurs occurs
    have apart := placed.pieces_apart occurs isPiece keeps.isPiece different
    exact apart.mono (placed.bound?_liesIn ownOccurs bound) (.refl piece)

/-- A name that is a token is apart from every other statement inside its own
for which an edit is proposed. -/
theorem IsPlaced.name_apart_of_inner (placed : module.IsPlaced)
    {name inner : Node} (occurs : module.root.Occurs parent statement)
    (binds : statement.Binds name) (token : name.children = [])
    (below : statement.Below inner) (different : inner ≠ statement)
    (kind : inner.BindsLocals)
    (proposed : module.candidateEdit? unused inner = some edit) :
    name.Apart inner := by
  rcases placed.part_below_or_apart occurs binds.isPartOf below different kind
    with within | apart
  · rcases ReflTransGen.cases_head within with rfl | ⟨child, member, _⟩
    · rw [candidateEdit?_of_leaf token] at proposed
      cases proposed
    · rw [token] at member
      cases member
  · exact apart.symm

/-- No line break starts at an offset. -/
def IsUnbroken (module : Module) (offset : Nat) : Prop :=
  (module.source.drop offset).head? ≠ some 0x0a ∧
    (module.source.drop offset).head? ≠ some 0x0d

/-- An edit that starts behind a statement but inside the edit of the statement
starts at the line break that goes with the statement. -/
theorem EditsWithin.not_isUnbroken {offset : Nat}
    (within : module.EditsWithin statement edit)
    (after : statement.stop ≤ offset) (inside : offset < edit.stop) :
    ¬ module.IsUnbroken offset := by
  intro unbroken
  rcases within.stop with before | ⟨lineBreak, shape, ⟨rest, follows⟩, stop⟩
  · omega
  · have here : module.source.drop offset =
        (lineBreak ++ rest).drop (offset - statement.stop) := by
      rw [follows, List.drop_drop, Nat.add_sub_cancel' after]
    have near : offset - statement.stop < lineBreak.length := by omega
    rw [List.drop_append_of_le_length (Nat.le_of_lt near),
      List.drop_eq_getElem_cons near, List.cons_append] at here
    have member := List.getElem_mem near
    rw [IsUnbroken, here, List.head?_cons] at unbroken
    generalize lineBreak[offset - statement.stop] = byte at unbroken member
    rcases shape with rfl | rfl
    · exact unbroken.1 (congrArg some (List.mem_singleton.mp member))
    · rcases List.mem_pair.mp member with carriage | feed
      · exact unbroken.2 (congrArg some carriage)
      · exact unbroken.1 (congrArg some feed)

/-! ## The range of a surviving edit -/

variable {survivor : Edit} {other name : Node} {otherParent : Option Node}

/-- An edit that starts inside that of a statement around its own one leaves the
names of its statement in the range of the outer edit. -/
theorem IsPlaced.stop_le_of_outer (placed : module.IsPlaced)
    (occurs : module.root.Occurs otherParent other)
    (below : other.Below statement) (different : statement ≠ other)
    (kind : statement.BindsLocals) (lies : name.LiesIn statement)
    (start : statement.start ≤ edit.start)
    (proposed : module.candidateEdit? unused other = some survivor)
    (inside : edit.StartsInside survivor) : name.stop ≤ survivor.stop := by
  have within := placed.below_liesIn occurs below
  rcases placed.removal_or_rewrites occurs proposed with
    rfl | ⟨first, last, rewrites⟩
  · exact Nat.le_trans (lies.trans within).2 (le_pastLineBreak _ _)
  · have range := placed.ordered _ _ (.child occurs rewrites.lastChild)
    have before := inside.2
    rw [rewrites.stop] at before ⊢
    rcases placed.part_below_or_apart occurs (.child rewrites.lastChild) below
      different kind with within | earlier | later
    · obtain ⟨_, lastOccurs⟩ : ∃ parent, module.root.Occurs parent last :=
        ⟨_, .child occurs rewrites.lastChild⟩
      exact Nat.le_trans lies.2 (placed.below_liesIn lastOccurs within).2
    · exact Nat.le_trans lies.2 (Nat.le_trans earlier range)
    · omega

/-- An edit that starts inside that of a statement within its own one, which is
considered earlier, stops no later than the inner edit. -/
theorem IsPlaced.stop_le_of_inner (placed : module.IsPlaced)
    (occurs : module.root.Occurs parent statement)
    (below : statement.Below other) (different : other ≠ statement)
    (kind : other.BindsLocals) (within : module.EditsWithin other survivor)
    (proposed : module.candidateEdit? unused statement = some edit)
    (unbroken : module.IsUnbroken edit.start)
    (inside : edit.StartsInside survivor)
    (earlier : Edit.considered survivor edit = true) :
    edit.stop ≤ survivor.stop := by
  by_contra longer
  have before : survivor.start < edit.start := by
    simp only [Edit.considered, Bool.or_eq_true, Bool.and_eq_true,
      decide_eq_true_eq] at earlier
    omega
  have otherStart := within.start
  rcases placed.removal_or_rewrites occurs proposed with
    rfl | ⟨first, last, rewrites⟩
  · have start := (placed.below_liesIn occurs below).1
    simp only [removal] at before
    omega
  · have start := rewrites.start
    have firstOccurs : module.root.Occurs (some statement) first :=
      .child occurs rewrites.firstChild
    have range := placed.ordered _ _ firstOccurs
    rcases placed.part_below_or_apart occurs (.child rewrites.firstChild) below
      different kind with below | ahead | behind
    · have nested := (placed.below_liesIn firstOccurs below).1
      omega
    · exact within.not_isUnbroken (start ▸ ahead) inside.2 unbroken
    · omega

/-- An edit only starts inside that of a statement apart from its own one where
names of its statement are empty. -/
theorem stop_le_of_apart (apart : statement.Apart other)
    (lies : name.LiesIn statement) (start : statement.start ≤ edit.start)
    (within : module.EditsWithin other survivor)
    (unbroken : module.IsUnbroken edit.start)
    (inside : edit.StartsInside survivor) : name.stop ≤ survivor.stop := by
  obtain ⟨starts, stops⟩ := inside
  rcases apart with ahead | behind
  · have nameStop := lies.2
    have otherStart := within.start
    omega
  · exact absurd unbroken
      (within.not_isUnbroken (Nat.le_trans behind start) stops)

/-! ## Stripped or copied -/

/-- A surviving edit of a statement replaces a range with a name in it; what it
copies are the texts of pieces that the statement keeps. -/
structure Covers (module : Module) (survivor : Edit) (statement name : Node)
    (kept : List Node) : Prop where
  survives : survivor ∈ module.unusedLocalEdits
  candidate : statement ∈ module.candidates
  proposed : module.candidateEdit?
    (isUnused module.identifiers module.hasMarkup) statement = some survivor
  start : survivor.start ≤ name.start
  stop : name.stop ≤ survivor.stop
  assembled : module.Assembled kept survivor.replacement
  keeps : ∀ piece ∈ kept, module.Keeps
    (isUnused module.identifiers module.hasMarkup) statement piece

/-- An edit that is proposed for a statement survives, or starts inside a
surviving one that is proposed for another statement and considered earlier. -/
theorem survives_or_starts_inside (listed : statement ∈ module.candidates)
    (proposed : module.candidateEdit?
      (isUnused module.identifiers module.hasMarkup) statement = some edit) :
    edit ∈ module.unusedLocalEdits ∨
      ∃ survivor ∈ module.unusedLocalEdits, ∃ other ∈ module.candidates,
        module.candidateEdit? (isUnused module.identifiers module.hasMarkup)
          other = some survivor ∧
        other ≠ statement ∧ edit.StartsInside survivor ∧
        Edit.considered survivor edit = true := by
  by_cases survives : edit ∈ module.unusedLocalEdits
  · exact .inl survives
  · obtain ⟨dropped, parts, inside⟩ :=
      Edit.exists_dropped_later module.proposedEdits
    have all := parts.mem_iff.mp
      (List.mem_filterMap.mpr ⟨statement, listed, proposed⟩)
    have isDropped : edit ∈ dropped :=
      (List.mem_append.mp all).resolve_left survives
    obtain ⟨survivor, known, starts, earlier⟩ := inside edit isDropped
    obtain ⟨other, otherListed, otherProposed⟩ := List.mem_filterMap.mp
      (parts.mem_iff.mpr (List.mem_append_left _ known))
    refine .inr ⟨survivor, known, other, otherListed, otherProposed, ?_, starts,
      earlier⟩
    rintro rfl
    cases otherProposed.symm.trans proposed
    exact survives known

/-- An unused name of a statement for which an edit is proposed lies in the range
of a surviving edit.  It is apart from all that the replacement copies, unless
its statement occurs in a piece that is copied.  The name is one token, and the
edit does not start at a line break, which goes with the statement before it. -/
theorem IsPlaced.strips_or_copies (placed : module.IsPlaced)
    (listed : statement ∈ module.candidates) (binds : statement.Binds name)
    (token : name.children = [])
    (gone : isUnused module.identifiers module.hasMarkup (module.text name) =
      true)
    (proposed : module.candidateEdit?
      (isUnused module.identifiers module.hasMarkup) statement = some edit)
    (unbroken : module.IsUnbroken edit.start) :
    ∃ survivor other kept, module.Covers survivor other name kept ∧
      ((∀ piece ∈ kept, name.Apart piece) ∨
        ∃ piece ∈ kept, piece.Below statement) := by
  obtain ⟨⟨parent, occurs⟩, kind⟩ := exists_occurs_of_candidate listed
  obtain ⟨nameStart, nameStop⟩ := placed.name_within occurs binds proposed
  rcases survives_or_starts_inside listed proposed with
    survives | ⟨survivor, known, other, otherListed, otherProposed, different,
      starts, earlier⟩
  · obtain ⟨kept, assembled, keeps⟩ := assembledFromKept_candidateEdit? proposed
    refine ⟨edit, statement, kept, ⟨survives, listed, proposed, nameStart,
      nameStop, assembled, keeps⟩, .inl fun piece member => ?_⟩
    exact placed.name_apart_of_keeps occurs binds gone (keeps piece member)
  · obtain ⟨⟨otherParent, otherOccurs⟩, otherKind⟩ :=
      exists_occurs_of_candidate otherListed
    obtain ⟨kept, assembled, keeps⟩ :=
      assembledFromKept_candidateEdit? otherProposed
    have covers : name.stop ≤ survivor.stop →
        module.Covers survivor other name kept := fun stop =>
      ⟨known, otherListed, otherProposed, Nat.le_trans starts.1 nameStart, stop,
        assembled, keeps⟩
    have lies := placed.below_liesIn occurs binds.isPartOf.below
    have start := (placed.candidateEdit?_within occurs proposed).start
    have within := placed.candidateEdit?_within otherOccurs otherProposed
    have pieceLies : ∀ piece ∈ kept, piece.LiesIn other := fun piece member =>
      placed.below_liesIn otherOccurs (keeps piece member).isPiece.isPartOf.below
    -- The other statement stands inside the own one, around it or apart from it;
    -- only one around it may copy a piece that the own statement occurs in.
    rcases placed.below_or_apart occurs otherOccurs with below | below | apart
    · have stop := placed.stop_le_of_inner occurs below different otherKind within
        proposed unbroken starts earlier
      have apart := placed.name_apart_of_inner occurs binds token below different
        otherKind otherProposed
      exact ⟨survivor, other, kept, covers (Nat.le_trans nameStop stop),
        .inl fun piece member => apart.mono (.refl name) (pieceLies piece member)⟩
    · have stop := placed.stop_le_of_outer otherOccurs below different.symm kind
        lies start otherProposed starts
      refine ⟨survivor, other, kept, covers stop, ?_⟩
      by_cases copied : ∃ piece ∈ kept, piece.Below statement
      · exact .inr copied
      · refine .inl fun piece member => ?_
        rcases placed.part_below_or_apart otherOccurs
          (keeps piece member).isPiece.isPartOf below different.symm kind
          with within | apart
        · exact absurd ⟨piece, member, within⟩ copied
        · exact apart.mono lies (.refl piece)
    · have stop := stop_le_of_apart apart lies start within unbroken starts
      exact ⟨survivor, other, kept, covers stop, .inl fun piece member =>
        apart.mono lies (pieceLies piece member)⟩

/-! ### A declaration that is rewritten around another -/

/-- A declaration of one unused variable, inside the function `b`. -/
def innerDeclaration : Node :=
  .named "lexical_declaration" 31 37 none [
    .named "variable_declarator" 35 36 none [
      .named "identifier" 35 36 "name" []]]

/-- A declaration of an unused variable and of the function `b`. -/
def outerDeclaration : Node :=
  .named "lexical_declaration" 12 40 none [
    .named "variable_declarator" 16 17 none [
      .named "identifier" 16 17 "name" []],
    .named "variable_declarator" 19 39 none [
      .named "identifier" 19 20 "name" [],
      .named "arrow_function" 23 39 "value" [
        .named "statement_block" 29 39 "body" [innerDeclaration]]]]

/-- The text of `rewritten`. -/
def rewrittenText : String :=
  "import 'x';\nlet a, b = () => \x7b let c; \x7d;\nb();\n"

/-- A module in which `a` and `c` are unused and `b` is not. -/
def rewritten : Module :=
  ⟨⟨["a.ts"]⟩, encode rewrittenText, .typescript,
    .named "program" 0 46 none [
      .named "import_statement" 0 11 none [
        .named "string" 7 10 "source" []],
      outerDeclaration,
      .named "expression_statement" 41 45 none [
        .named "call_expression" 41 44 none [
          .named "identifier" 41 42 "function" []]]]⟩

theorem isPlaced_rewritten : rewritten.IsPlaced :=
  @isPlaced_of_visits _ rewrittenText rfl (by decide)

theorem identifiers_rewritten : rewritten.identifiers = ["a", "b", "c", "b"] := by
  unfold identifiers
  rw [nodes_eq]
  decide

theorem hasMarkup_rewritten : rewritten.hasMarkup = false := by
  unfold hasMarkup
  rw [nodes_eq]
  decide

theorem candidates_rewritten : ∃ first,
    rewritten.candidates = [first, outerDeclaration, innerDeclaration] := by
  unfold candidates candidatesIn
  rw [traverse_eq_flatMap]
  exact ⟨_, rfl⟩

theorem candidateEdit?_rewritten :
    rewritten.candidateEdit? (isUnused ["a", "b", "c", "b"] false)
      outerDeclaration = some ⟨16, 39, "b = () => \x7b let c; \x7d"⟩ ∧
    rewritten.candidateEdit? (isUnused ["a", "b", "c", "b"] false)
      innerDeclaration = some ⟨31, 37, ""⟩ := by
  decide

theorem unusedLocalEdits_rewritten : rewritten.unusedLocalEdits =
    [⟨16, 39, "b = () => \x7b let c; \x7d"⟩] := by
  have proposed : rewritten.proposedEdits =
      [⟨16, 39, "b = () => \x7b let c; \x7d"⟩, ⟨31, 37, ""⟩] := by
    unfold proposedEdits candidates candidatesIn
    rw [traverse_eq_flatMap, identifiers_rewritten, hasMarkup_rewritten]
    decide
  rw [unusedLocalEdits_eq, proposed, Edit.keep,
    List.mergeSort_of_pairwise (by decide)]
  decide

theorem isUnbroken_rewritten :
    rewritten.IsUnbroken 16 ∧ rewritten.IsUnbroken 31 := by
  unfold IsUnbroken
  decide

/-- The unused name `a` goes.  The unused name `c` stays, as its declaration is
copied with the function `b`. -/
theorem strips_or_copies_rewritten :
    rewritten.removeUnusedLocals? =
      some ("import 'x';\nlet b = () => \x7b let c; \x7d;\nb();\n", 1) ∧
    (∃ survivor other kept,
      rewritten.Covers survivor other (.named "identifier" 16 17 "name" [])
        kept ∧
      ((∀ piece ∈ kept, (Node.named "identifier" 16 17 "name" []).Apart piece) ∨
        ∃ piece ∈ kept, piece.Below outerDeclaration)) ∧
    ∃ survivor other kept,
      rewritten.Covers survivor other (.named "identifier" 35 36 "name" [])
        kept ∧
      ((∀ piece ∈ kept, (Node.named "identifier" 35 36 "name" []).Apart piece) ∨
        ∃ piece ∈ kept, piece.Below innerDeclaration) := by
  obtain ⟨first, listed⟩ := candidates_rewritten
  obtain ⟨outer, inner⟩ := candidateEdit?_rewritten
  rw [← identifiers_rewritten, ← hasMarkup_rewritten] at outer inner
  have kind : "lexical_declaration" ∈ variableKinds := by decide
  refine ⟨?_, ?_, ?_⟩
  · have left : Edit.applyAll [⟨16, 39, "b = () => \x7b let c; \x7d"⟩]
        rewritten.source =
          encode "import 'x';\nlet b = () => \x7b let c; \x7d;\nb();\n" := by
      decide
    rw [removeUnusedLocals?, withoutUnusedLocals?, unusedLocalEdits_rewritten,
      left, Text.Utf8.decode?_encode]
    rfl
  · refine isPlaced_rewritten.strips_or_copies (by simp [listed])
      (.declarator kind (List.mem_cons_self ..) rfl rfl rfl) rfl ?_ outer
      isUnbroken_rewritten.1
    rw [identifiers_rewritten, hasMarkup_rewritten]
    decide
  · refine isPlaced_rewritten.strips_or_copies (by simp [listed])
      (.declarator kind (List.mem_cons_self ..) rfl rfl rfl) rfl ?_ inner
      isUnbroken_rewritten.2
    rw [identifiers_rewritten, hasMarkup_rewritten]
    decide

end Module

end ExportAudit
