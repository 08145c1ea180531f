import Mathlib.Data.List.Pairwise
import Mathlib.Logic.Relation
import ExportAudit.Proofs.UnusedLocal.Removal

/-!
# What edits keep

An edit of an import or of a variable declaration decides on pieces: default
bindings, namespaces and specifiers of the import clause, or the declarators of
the declaration.  A piece whose name is unused goes, every other is copied from
the source.  The replacement consists of such copies and of punctuation.

In a placed tree two pieces of a statement are the same or apart, so nothing
that is copied overlaps a name that goes.
-/

namespace ExportAudit

open Relation (ReflTransGen)

/-! ## Ranges of nodes -/

/-- The range of a node lies within that of another. -/
def Node.LiesIn (inner outer : Node) : Prop :=
  outer.start ≤ inner.start ∧ inner.stop ≤ outer.stop

/-- The ranges of two nodes do not overlap. -/
def Node.Apart (left right : Node) : Prop :=
  left.stop ≤ right.start ∨ right.stop ≤ left.start

/-- A node occurs in the tree of another. -/
def Node.Below : (outer inner : Node) → Prop :=
  ReflTransGen fun outer inner => inner ∈ outer.children

theorem Node.LiesIn.refl (node : Node) : node.LiesIn node :=
  ⟨Nat.le_refl _, Nat.le_refl _⟩

theorem Node.LiesIn.trans {inner middle outer : Node}
    (first : inner.LiesIn middle) (second : middle.LiesIn outer) :
    inner.LiesIn outer :=
  ⟨Nat.le_trans second.1 first.1, Nat.le_trans first.2 second.2⟩

theorem Node.Apart.symm {left right : Node} (apart : left.Apart right) :
    right.Apart left :=
  Or.symm apart

instance : Std.Symm Node.Apart := ⟨fun _ _ => Node.Apart.symm⟩

theorem Node.Apart.mono {left right inLeft inRight : Node}
    (apart : left.Apart right) (leftLies : inLeft.LiesIn left)
    (rightLies : inRight.LiesIn right) : inLeft.Apart inRight := by
  rcases apart with before | after
  · exact .inl (Nat.le_trans leftLies.2 (Nat.le_trans before rightLies.1))
  · exact .inr (Nat.le_trans rightLies.2 (Nat.le_trans after leftLies.1))

theorem Node.Below.exists_occurs {root outer inner : Node}
    {parent : Option Node} (below : outer.Below inner)
    (occurs : root.Occurs parent outer) : ∃ parent, root.Occurs parent inner := by
  induction below with
  | refl => exact ⟨parent, occurs⟩
  | tail _ member ih =>
      obtain ⟨_, above⟩ := ih
      exact ⟨_, .child above member⟩

theorem Node.below_of_occurs {root node : Node} {parent : Option Node}
    (occurs : root.Occurs parent node) : root.Below node := by
  induction occurs with
  | root => exact .refl
  | child _ member ih => exact ih.tail member

namespace Module

variable {module : Module} {unused : String → Bool} {statement : Node}
  {parent : Option Node} {edit : Edit}

theorem IsPlaced.child_liesIn (placed : module.IsPlaced) {node child : Node}
    (occurs : module.root.Occurs parent node) (member : child ∈ node.children) :
    child.LiesIn node :=
  placed.nested _ _ (.child occurs member)

theorem IsPlaced.below_liesIn (placed : module.IsPlaced) {outer inner : Node}
    (occurs : module.root.Occurs parent outer) (below : outer.Below inner) :
    inner.LiesIn outer := by
  induction below with
  | refl => exact .refl outer
  | tail way member ih =>
      obtain ⟨_, above⟩ := Node.Below.exists_occurs way occurs
      exact (placed.child_liesIn above member).trans ih

/-- Different children of a node are apart. -/
theorem IsPlaced.children_apart (placed : module.IsPlaced)
    {node left right : Node} (occurs : module.root.Occurs parent node)
    (leftChild : left ∈ node.children) (rightChild : right ∈ node.children)
    (different : left ≠ right) : left.Apart right := by
  have ordered := (placed.siblings _ _ occurs).imp
    fun {left right} before => (Or.inl before : left.Apart right)
  exact ordered.forall leftChild rightChild different

end Module

/-! ## Pieces -/

/-- A piece of a statement: a part of it that is removed or kept as a whole. -/
inductive Node.IsPiece (statement : Node) : Node → Prop where
  | part {clause part : Node} (kind : statement.kind = "import_statement")
      (clause_eq : statement.namedChild? "import_clause" = some clause)
      (listed : part ∈ clause.namedChildren)
      (part_kind : part.kind = "identifier" ∨ part.kind = "namespace_import") :
      IsPiece statement part
  | specifier {clause part specifier : Node}
      (kind : statement.kind = "import_statement")
      (clause_eq : statement.namedChild? "import_clause" = some clause)
      (listed : part ∈ clause.namedChildren)
      (part_kind : part.kind = "named_imports")
      (specified : specifier ∈ part.namedChildren)
      (specifier_kind : specifier.kind = "import_specifier") :
      IsPiece statement specifier
  | declarator {declarator : Node}
      (kind : statement.kind ∈ Module.variableKinds)
      (listed : declarator ∈ statement.namedChildren)
      (declarator_kind : declarator.kind = "variable_declarator") :
      IsPiece statement declarator

/-- The node of the name that a piece binds, where it is a plain name. -/
def Node.bound? (piece : Node) : Option Node :=
  if piece.kind = "identifier" then some piece
  else if piece.kind = "namespace_import" then piece.namedChild? "identifier"
  else if piece.kind = "import_specifier" then
    (piece.childByField "alias").orElse fun _ => piece.childByField "name"
  else if piece.kind = "variable_declarator" then
    (piece.childByField "name").filter fun name => name.kind = "identifier"
  else none

/-- A statement binds a name as that of a whole declaration or by a piece. -/
theorem Node.Binds.declares_or_piece {statement name : Node}
    (binds : statement.Binds name) :
    statement.kind ∈ Module.declarationKinds ∧
        statement.childByField "name" = some name ∨
      ∃ piece, statement.IsPiece piece ∧ piece.bound? = some name := by
  cases binds with
  | default kind clause_eq listed name_kind =>
      refine .inr ⟨name, .part kind clause_eq listed (.inl name_kind), ?_⟩
      rw [bound?, if_pos name_kind]
  | namespaceAlias kind clause_eq listed part_kind name_eq =>
      refine .inr ⟨_, .part kind clause_eq listed (.inr part_kind), ?_⟩
      simpa [bound?, part_kind] using name_eq
  | specifier kind clause_eq listed part_kind specified specifier_kind name_eq =>
      refine .inr ⟨_, .specifier kind clause_eq listed part_kind specified
        specifier_kind, ?_⟩
      simpa [bound?, specifier_kind] using name_eq
  | declarator kind listed declarator_kind name_eq name_kind =>
      refine .inr ⟨_, .declarator kind listed declarator_kind, ?_⟩
      simp [bound?, declarator_kind, name_eq, name_kind]
  | declaration kind name_eq => exact .inl ⟨kind, name_eq⟩

theorem Node.mem_children_of_childByField {node child : Node} {field : String}
    (found : node.childByField field = some child) : child ∈ node.children :=
  List.mem_of_find?_eq_some found

theorem Node.mem_children_of_namedChild? {node child : Node} {kind : String}
    (found : node.namedChild? kind = some child) : child ∈ node.children :=
  List.mem_of_mem_filter (List.mem_of_find?_eq_some found)

/-- The name of a piece is the piece itself or a child of it. -/
theorem Node.eq_or_mem_of_bound? {piece name : Node}
    (bound : piece.bound? = some name) : name = piece ∨ name ∈ piece.children := by
  unfold bound? at bound
  split at bound
  · exact .inl (Option.some.inj bound).symm
  · split at bound
    · exact .inr (mem_children_of_namedChild? bound)
    · split at bound
      · rw [Option.orElse_eq_or, Option.or_eq_some_iff] at bound
        rcases bound with alias_eq | ⟨_, name_eq⟩
        · exact .inr (mem_children_of_childByField alias_eq)
        · exact .inr (mem_children_of_childByField name_eq)
      · split at bound
        · exact .inr (mem_children_of_childByField
            (Option.filter_eq_some_iff.mp bound).1)
        · cases bound

/-! ## Parts between statements -/

/-- A node is a child of another from which no names are removed. -/
def Node.PassesTo (outer inner : Node) : Prop :=
  ¬ outer.BindsLocals ∧ inner ∈ outer.children

/-- A node stands in a statement with no other statement between them. -/
def Node.IsPartOf (part statement : Node) : Prop :=
  ∃ child ∈ statement.children, ReflTransGen PassesTo child part

theorem Node.not_bindsLocals {node : Node} {kind : String}
    (same : node.kind = kind)
    (other : kind ∉ "import_statement" ::
      (Module.declarationKinds ++ Module.variableKinds)) :
    ¬ node.BindsLocals := by
  rw [BindsLocals, same]
  simpa only [List.mem_cons, List.mem_append] using other

theorem Node.IsPartOf.child {part statement : Node}
    (member : part ∈ statement.children) : part.IsPartOf statement :=
  ⟨part, member, .refl⟩

theorem Node.IsPartOf.tail {part inner statement : Node}
    (partOf : part.IsPartOf statement) (passes : part.PassesTo inner) :
    inner.IsPartOf statement := by
  obtain ⟨child, member, way⟩ := partOf
  exact ⟨child, member, way.tail passes⟩

theorem Node.IsPartOf.below {part statement : Node}
    (partOf : part.IsPartOf statement) : statement.Below part := by
  obtain ⟨child, member, way⟩ := partOf
  exact ReflTransGen.head member
    (ReflTransGen.mono (fun _ _ => And.right) _ _ way)

theorem Node.IsPiece.isPartOf {statement piece : Node}
    (isPiece : statement.IsPiece piece) : piece.IsPartOf statement := by
  have clausePart : ∀ {clause : Node},
      statement.namedChild? "import_clause" = some clause →
      ∀ part ∈ clause.namedChildren, part.IsPartOf statement := by
    intro clause clause_eq part listed
    have kind : clause.kind = "import_clause" := by
      simpa using List.find?_some clause_eq
    exact (IsPartOf.child (mem_children_of_namedChild? clause_eq)).tail
      ⟨not_bindsLocals kind (by decide), List.mem_of_mem_filter listed⟩
  cases isPiece with
  | part _ clause_eq listed => exact clausePart clause_eq _ listed
  | specifier _ clause_eq listed part_kind specified =>
      exact (clausePart clause_eq _ listed).tail
        ⟨not_bindsLocals part_kind (by decide), List.mem_of_mem_filter specified⟩
  | declarator _ listed => exact .child (List.mem_of_mem_filter listed)

theorem Node.IsPiece.not_bindsLocals {statement piece : Node}
    (isPiece : statement.IsPiece piece) : ¬ piece.BindsLocals := by
  cases isPiece with
  | part _ _ _ part_kind =>
      rcases part_kind with kind | kind
      · exact Node.not_bindsLocals kind (by decide)
      · exact Node.not_bindsLocals kind (by decide)
  | specifier _ _ _ _ _ specifier_kind =>
      exact Node.not_bindsLocals specifier_kind (by decide)
  | declarator _ _ declarator_kind =>
      exact Node.not_bindsLocals declarator_kind (by decide)

theorem Node.Binds.isPartOf {statement name : Node}
    (binds : statement.Binds name) : name.IsPartOf statement := by
  rcases binds.declares_or_piece with ⟨_, name_eq⟩ | ⟨piece, isPiece, bound⟩
  · exact .child (mem_children_of_childByField name_eq)
  · rcases eq_or_mem_of_bound? bound with rfl | member
    · exact isPiece.isPartOf
    · exact isPiece.isPartOf.tail ⟨isPiece.not_bindsLocals, member⟩

namespace Module

variable {module : Module} {unused : String → Bool} {statement : Node}
  {parent : Option Node} {edit : Edit}

theorem IsPlaced.bound?_liesIn (placed : module.IsPlaced) {piece name : Node}
    (occurs : module.root.Occurs parent piece)
    (bound : piece.bound? = some name) : name.LiesIn piece := by
  rcases Node.eq_or_mem_of_bound? bound with rfl | member
  · exact .refl name
  · exact placed.child_liesIn occurs member

theorem not_declaration_of_variable (kind : statement.kind ∈ variableKinds) :
    statement.kind ∉ declarationKinds := by
  revert kind
  generalize statement.kind = kind
  revert kind
  decide

theorem not_variable_of_import (kind : statement.kind = "import_statement") :
    statement.kind ∉ variableKinds := by
  rw [kind]
  decide

theorem not_declaration_of_import (kind : statement.kind = "import_statement") :
    statement.kind ∉ declarationKinds := by
  rw [kind]
  decide

/-- Declarations that are removed as a whole have no pieces. -/
theorem not_declaration_of_piece {piece : Node}
    (isPiece : statement.IsPiece piece) : statement.kind ∉ declarationKinds := by
  cases isPiece with
  | part kind => exact not_declaration_of_import kind
  | specifier kind => exact not_declaration_of_import kind
  | declarator kind => exact not_declaration_of_variable kind

/-- A default binding or namespace of an import clause is apart from the
specifiers of another part. -/
theorem IsPlaced.part_apart_specifier (placed : module.IsPlaced)
    {clause left part specifier : Node}
    (occurs : module.root.Occurs parent clause)
    (leftListed : left ∈ clause.namedChildren)
    (leftKind : left.kind = "identifier" ∨ left.kind = "namespace_import")
    (listed : part ∈ clause.namedChildren)
    (part_kind : part.kind = "named_imports")
    (specified : specifier ∈ part.namedChildren) : left.Apart specifier := by
  have different : left ≠ part := by
    rintro rfl
    simp [part_kind] at leftKind
  have child := List.mem_of_mem_filter listed
  have apart := placed.children_apart occurs (List.mem_of_mem_filter leftListed)
    child different
  exact apart.mono (.refl left) (placed.child_liesIn (.child occurs child)
    (List.mem_of_mem_filter specified))

/-- Different specifiers of an import clause are apart. -/
theorem IsPlaced.specifiers_apart (placed : module.IsPlaced)
    {clause leftPart rightPart left right : Node}
    (occurs : module.root.Occurs parent clause)
    (leftListed : leftPart ∈ clause.children)
    (rightListed : rightPart ∈ clause.children)
    (leftSpecified : left ∈ leftPart.children)
    (rightSpecified : right ∈ rightPart.children) (different : left ≠ right) :
    left.Apart right := by
  have leftOccurs : module.root.Occurs (some clause) leftPart :=
    .child occurs leftListed
  have rightOccurs : module.root.Occurs (some clause) rightPart :=
    .child occurs rightListed
  by_cases same : leftPart = rightPart
  · subst same
    exact placed.children_apart leftOccurs leftSpecified rightSpecified different
  · have apart := placed.children_apart occurs leftListed rightListed same
    exact apart.mono (placed.child_liesIn leftOccurs leftSpecified)
      (placed.child_liesIn rightOccurs rightSpecified)

/-- Different pieces of a statement are apart. -/
theorem IsPlaced.pieces_apart (placed : module.IsPlaced) {left right : Node}
    (occurs : module.root.Occurs parent statement)
    (leftPiece : statement.IsPiece left) (rightPiece : statement.IsPiece right)
    (different : left ≠ right) : left.Apart right := by
  cases leftPiece with
  | @part clause _ kind clause_eq listed part_kind =>
      have clauseOccurs : module.root.Occurs (some statement) clause :=
        .child occurs (Node.mem_children_of_namedChild? clause_eq)
      cases rightPiece with
      | part _ also alsoListed =>
          cases also.symm.trans clause_eq
          exact placed.children_apart clauseOccurs
            (List.mem_of_mem_filter listed) (List.mem_of_mem_filter alsoListed)
            different
      | specifier _ also alsoListed also_kind specified =>
          cases also.symm.trans clause_eq
          exact placed.part_apart_specifier clauseOccurs listed part_kind
            alsoListed also_kind specified
      | declarator varies => exact absurd varies (not_variable_of_import kind)
  | @specifier clause part _ kind clause_eq listed part_kind specified =>
      have clauseOccurs : module.root.Occurs (some statement) clause :=
        .child occurs (Node.mem_children_of_namedChild? clause_eq)
      cases rightPiece with
      | part _ also alsoListed also_kind =>
          cases also.symm.trans clause_eq
          exact (placed.part_apart_specifier clauseOccurs alsoListed also_kind
            listed part_kind specified).symm
      | specifier _ also alsoListed _ alsoSpecified =>
          cases also.symm.trans clause_eq
          exact placed.specifiers_apart clauseOccurs
            (List.mem_of_mem_filter listed) (List.mem_of_mem_filter alsoListed)
            (List.mem_of_mem_filter specified)
            (List.mem_of_mem_filter alsoSpecified) different
      | declarator varies => exact absurd varies (not_variable_of_import kind)
  | declarator varies listed =>
      cases rightPiece with
      | part kind => exact absurd varies (not_variable_of_import kind)
      | specifier kind => exact absurd varies (not_variable_of_import kind)
      | declarator _ alsoListed =>
          exact placed.children_apart occurs (List.mem_of_mem_filter listed)
            (List.mem_of_mem_filter alsoListed) different

/-! ## Replacements -/

/-- A text consists of copies of nodes of a module and of the punctuation of
lists. -/
inductive Assembled (module : Module) : List Node → String → Prop where
  | nil : Assembled module [] ""
  | mark {nodes : List Node} {mark text : String}
      (listed : mark ∈ [", ", "\x7b ", " \x7d"])
      (rest : Assembled module nodes text) :
      Assembled module nodes (mark ++ text)
  | copy {node : Node} {nodes : List Node} {text : String}
      (rest : Assembled module nodes text) :
      Assembled module (node :: nodes) (module.text node ++ text)

/-- A piece of a statement is kept: the name that it binds, if it binds a plain
one, is used. -/
structure Keeps (module : Module) (unused : String → Bool)
    (statement piece : Node) : Prop where
  isPiece : statement.IsPiece piece
  used : ∀ name, piece.bound? = some name → unused (module.text name) = false

theorem Assembled.append {left right : List Node} {first second : String}
    (before : module.Assembled left first)
    (after : module.Assembled right second) :
    module.Assembled (left ++ right) (first ++ second) := by
  induction before with
  | nil => simpa using after
  | mark listed _ ih =>
      rw [String.append_assoc]
      exact .mark listed ih
  | copy _ ih =>
      rw [String.append_assoc]
      exact .copy ih

theorem Assembled.single (node : Node) :
    module.Assembled [node] (module.text node) := by
  have copied : module.Assembled [node] (module.text node ++ "") := .copy .nil
  rwa [String.append_empty] at copied

/-- A list of texts is assembled from what the texts are assembled from. -/
theorem Assembled.intercalate {parts : List (List Node)} {texts : List String}
    (each : List.Forall₂ (Assembled module) parts texts) :
    module.Assembled parts.flatten (", ".intercalate texts) := by
  induction each with
  | nil => exact .nil
  | @cons part text parts texts first others ih =>
      rw [List.flatten_cons]
      cases others with
      | nil => simpa using first
      | cons =>
          rw [String.intercalate_cons_cons, String.append_assoc]
          exact first.append (.mark (by simp) ih)

theorem assembled_copies (nodes : List Node) :
    module.Assembled nodes (", ".intercalate (nodes.map module.text)) := by
  have each : List.Forall₂ (Assembled module) (nodes.map fun node => [node])
      (nodes.map module.text) := by
    rw [List.forall₂_map_left_iff, List.forall₂_map_right_iff,
      List.forall₂_same]
    exact fun node _ => .single node
  have joined := Assembled.intercalate each
  rwa [← List.flatMap_def, List.flatMap_singleton'] at joined

/-- What is left of an import clause is assembled from the nodes whose texts are
left. -/
theorem assembled_remainder (parts specifiers : List Node) (removed : Bool) :
    module.Assembled (parts ++ specifiers)
      (ImportRemainder.text
        ⟨removed, parts.map module.text, specifiers.map module.text⟩) := by
  cases specifiers with
  | nil =>
      rw [List.append_nil]
      simpa [ImportRemainder.text] using assembled_copies parts
  | cons first rest =>
      have braced : module.Assembled (first :: rest)
          ("\x7b " ++ ", ".intercalate ((first :: rest).map module.text) ++
            " \x7d") := by
        have closing : module.Assembled [] (" \x7d" ++ "") :=
          .mark (by simp) .nil
        have opened : module.Assembled (first :: rest)
            ("\x7b " ++ ", ".intercalate ((first :: rest).map module.text)) :=
          .mark (by simp) (assembled_copies (first :: rest))
        simpa using opened.append closing
      have each : List.Forall₂ (Assembled module)
          ((parts.map fun node => [node]) ++ [first :: rest])
          (parts.map module.text ++ ["\x7b " ++
            ", ".intercalate ((first :: rest).map module.text) ++ " \x7d"]) := by
        refine List.rel_append ?_ (.cons braced .nil)
        rw [List.forall₂_map_left_iff, List.forall₂_map_right_iff,
          List.forall₂_same]
        exact fun node _ => .single node
      have joined := Assembled.intercalate each
      rw [List.flatten_append, ← List.flatMap_def, List.flatMap_singleton']
        at joined
      simpa [ImportRemainder.text] using joined

/-- Texts that are each the text of a kept piece are the texts of a list of kept
pieces. -/
theorem exists_kept_of_texts {texts : List String}
    (each : ∀ text ∈ texts, ∃ piece,
      module.Keeps unused statement piece ∧ module.text piece = text) :
    ∃ pieces : List Node, pieces.map module.text = texts ∧
      ∀ piece ∈ pieces, module.Keeps unused statement piece := by
  induction texts with
  | nil => exact ⟨[], rfl, nofun⟩
  | cons text rest ih =>
      obtain ⟨⟨piece, keeps, rfl⟩, others⟩ := List.forall_mem_cons.mp each
      obtain ⟨pieces, rfl, kept⟩ := ih others
      exact ⟨piece :: pieces, rfl, List.forall_mem_cons.mpr ⟨keeps, kept⟩⟩

/-! ## Kept pieces of edits -/

/-- The texts that are left. -/
def ImportRemainder.texts (remainder : ImportRemainder) : List String :=
  remainder.parts ++ remainder.specifiers

theorem ImportRemainder.exists_of_mem_combine {pieces : List ImportRemainder}
    {text : String} (member : text ∈ (combine pieces).texts) :
    ∃ piece ∈ pieces, text ∈ piece.texts := by
  rcases List.mem_append.mp member with member | member
  · obtain ⟨piece, listed, member⟩ := List.mem_flatMap.mp member
    exact ⟨piece, listed, List.mem_append_left _ member⟩
  · obtain ⟨piece, listed, member⟩ := List.mem_flatMap.mp member
    exact ⟨piece, listed, List.mem_append_right _ member⟩

theorem keeps_of_specifier {specifier : Node} {text : String}
    (isPiece : statement.IsPiece specifier)
    (kind : specifier.kind = "import_specifier")
    (left : text ∈ (module.specifierRemainder unused specifier).texts) :
    module.Keeps unused statement specifier ∧ module.text specifier = text := by
  unfold specifierRemainder at left
  dsimp only at left
  split at left
  · cases left
  · next used =>
    cases List.mem_singleton.mp left
    refine ⟨⟨isPiece, fun name bound => ?_⟩, rfl⟩
    have named : ((specifier.childByField "alias").orElse fun _ =>
        specifier.childByField "name") = some name := by
      simpa [Node.bound?, kind] using bound
    rw [named, Option.any_some] at used
    exact Bool.eq_false_iff.mpr used

/-- What is left of a part of an import clause are the texts of kept pieces. -/
theorem keeps_of_importPart {clause part : Node} {remainder : ImportRemainder}
    (kind : statement.kind = "import_statement")
    (clause_eq : statement.namedChild? "import_clause" = some clause)
    (listed : part ∈ clause.namedChildren)
    (found : module.importPartRemainder? unused part = some remainder)
    {text : String} (left : text ∈ remainder.texts) : ∃ piece,
      module.Keeps unused statement piece ∧ module.text piece = text := by
  unfold importPartRemainder? at found
  split at found
  · next part_kind =>
    have isPiece : statement.IsPiece part :=
      .part kind clause_eq listed (.inl part_kind)
    split at found
    · cases found
      cases left
    · next used =>
      cases found
      cases List.mem_singleton.mp left
      refine ⟨part, ⟨isPiece, fun name bound => ?_⟩, rfl⟩
      rw [Node.bound?, if_pos part_kind] at bound
      cases bound
      exact Bool.eq_false_iff.mpr used
  · split at found
    · next part_kind =>
      have isPiece : statement.IsPiece part :=
        .part kind clause_eq listed (.inr part_kind)
      split at found
      · cases found
        cases left
      · next used =>
        cases found
        cases List.mem_singleton.mp left
        refine ⟨part, ⟨isPiece, fun name bound => ?_⟩, rfl⟩
        have named : part.namedChild? "identifier" = some name := by
          simpa [Node.bound?, part_kind] using bound
        simpa [named] using used
    · split at found
      · next part_kind =>
        cases found
        obtain ⟨piece, member, left⟩ :=
          ImportRemainder.exists_of_mem_combine left
        obtain ⟨specifier, specified, rfl⟩ := List.mem_map.mp member
        obtain ⟨specified, specifier_kind⟩ := List.mem_filter.mp specified
        have specifier_kind := of_decide_eq_true specifier_kind
        exact ⟨specifier, keeps_of_specifier (.specifier kind clause_eq listed
          part_kind specified specifier_kind) specifier_kind left⟩
      · cases found

/-- A text is assembled from pieces that a statement keeps. -/
def AssembledFromKept (module : Module) (unused : String → Bool)
    (statement : Node) (text : String) : Prop :=
  ∃ kept, module.Assembled kept text ∧
    ∀ piece ∈ kept, module.Keeps unused statement piece

theorem assembledFromKept_removal :
    module.AssembledFromKept unused statement
      (module.removal statement).replacement :=
  ⟨[], .nil, nofun⟩

theorem assembledFromKept_importEdit? (kind : statement.kind = "import_statement")
    (proposed : module.importEdit? unused statement = some edit) :
    module.AssembledFromKept unused statement edit.replacement := by
  obtain ⟨clause, pieces, clause_eq, mapped, _, rfl | rfl⟩ :=
    importEdit?_cases proposed
  · exact assembledFromKept_removal
  · have left : ∀ text ∈ (ImportRemainder.combine pieces).texts, ∃ piece,
        module.Keeps unused statement piece ∧ module.text piece = text := by
      intro text member
      obtain ⟨piece, listed, member⟩ :=
        ImportRemainder.exists_of_mem_combine member
      obtain ⟨part, partListed, found⟩ := exists_of_forall₂_of_mem
        (optionMapM_eq_some.mp mapped).flip listed
      exact keeps_of_importPart kind clause_eq partListed found member
    obtain ⟨parts, partTexts, partsKept⟩ := exists_kept_of_texts
      fun text member => left text (List.mem_append_left _ member)
    obtain ⟨specifiers, specifierTexts, specifiersKept⟩ := exists_kept_of_texts
      fun text member => left text (List.mem_append_right _ member)
    refine ⟨parts ++ specifiers, ?_,
      List.forall_mem_append.mpr ⟨partsKept, specifiersKept⟩⟩
    have assembled : module.Assembled (parts ++ specifiers) _ :=
      assembled_remainder parts specifiers
        (ImportRemainder.combine pieces).removed
    rwa [partTexts, specifierTexts] at assembled

theorem assembledFromKept_variableEdit? (kind : statement.kind ∈ variableKinds)
    (proposed : module.variableEdit? unused statement = some edit) :
    module.AssembledFromKept unused statement edit.replacement := by
  obtain ⟨_, rfl | ⟨first, last, _, _, rfl⟩⟩ := variableEdit?_cases proposed
  · exact assembledFromKept_removal
  · refine ⟨_, assembled_copies _, fun declarator member => ?_⟩
    obtain ⟨member, used⟩ := List.mem_filter.mp member
    obtain ⟨listed, declarator_kind⟩ := List.mem_filter.mp member
    have declarator_kind := of_decide_eq_true declarator_kind
    refine ⟨.declarator kind listed declarator_kind, fun name bound => ?_⟩
    have named : (declarator.childByField "name").filter
        (fun name => name.kind = "identifier") = some name := by
      simpa [Node.bound?, declarator_kind] using bound
    obtain ⟨name_eq, name_kind⟩ := Option.filter_eq_some_iff.mp named
    simpa [isUnusedDeclarator, name_eq, of_decide_eq_true name_kind] using used

/-- A proposed edit replaces its range by what is assembled from kept pieces. -/
theorem assembledFromKept_candidateEdit?
    (proposed : module.candidateEdit? unused statement = some edit) :
    module.AssembledFromKept unused statement edit.replacement := by
  unfold candidateEdit? at proposed
  split at proposed
  · next kind => exact assembledFromKept_importEdit? kind proposed
  · split at proposed
    · next kind => exact assembledFromKept_variableEdit? kind proposed
    · obtain ⟨_, _, _, rfl⟩ := declarationEdit?_cases proposed
      exact assembledFromKept_removal

/-! ## Ranges of rewritten pieces -/

/-- An edit rewrites what stands from one child of a statement to another, with
all its pieces. -/
structure Rewrites (statement : Node) (edit : Edit) (first last : Node) :
    Prop where
  kind : statement.kind ∉ declarationKinds
  firstChild : first ∈ statement.children
  lastChild : last ∈ statement.children
  start : edit.start = first.start
  stop : edit.stop = last.stop
  pieces : ∀ piece, statement.IsPiece piece →
    first.start ≤ piece.start ∧ piece.stop ≤ last.stop

theorem IsPlaced.piece_liesIn_clause (placed : module.IsPlaced)
    {clause piece : Node} (occurs : module.root.Occurs parent statement)
    (kind : statement.kind = "import_statement")
    (clause_eq : statement.namedChild? "import_clause" = some clause)
    (isPiece : statement.IsPiece piece) : piece.LiesIn clause := by
  have clauseOccurs : module.root.Occurs (some statement) clause :=
    .child occurs (Node.mem_children_of_namedChild? clause_eq)
  cases isPiece with
  | part _ also listed =>
      cases also.symm.trans clause_eq
      exact placed.child_liesIn clauseOccurs (List.mem_of_mem_filter listed)
  | specifier _ also listed _ specified =>
      cases also.symm.trans clause_eq
      have child := List.mem_of_mem_filter listed
      exact (placed.child_liesIn (.child clauseOccurs child)
        (List.mem_of_mem_filter specified)).trans
          (placed.child_liesIn clauseOccurs child)
  | declarator varies => exact absurd varies (not_variable_of_import kind)

/-- Each of a list of nodes in order starts no earlier than the first of them and
stops no later than the last. -/
theorem within_of_ends {nodes : List Node} {first last node : Node}
    (ordered : nodes.Pairwise fun left right => left.stop ≤ right.start)
    (ranges : ∀ node ∈ nodes, node.start ≤ node.stop)
    (isFirst : nodes.head? = some first) (isLast : nodes.getLast? = some last)
    (member : node ∈ nodes) :
    first.start ≤ node.start ∧ node.stop ≤ last.stop := by
  constructor
  · obtain ⟨rest, rfl⟩ := List.head?_eq_some_iff.mp isFirst
    rcases List.mem_cons.mp member with rfl | later
    · exact Nat.le_refl _
    · have range := ranges first (List.mem_cons_self ..)
      have before := (List.pairwise_cons.mp ordered).1 node later
      omega
  · obtain ⟨rest, rfl⟩ := List.getLast?_eq_some_iff.mp isLast
    rcases List.mem_append.mp member with earlier | here
    · have range := ranges last (by simp)
      have before := (List.pairwise_append.mp ordered).2.2 node earlier last
        (List.mem_singleton_self _)
      omega
    · cases List.mem_singleton.mp here
      exact Nat.le_refl _

/-- A proposed edit removes the statement or rewrites its pieces. -/
theorem IsPlaced.removal_or_rewrites (placed : module.IsPlaced)
    (occurs : module.root.Occurs parent statement)
    (proposed : module.candidateEdit? unused statement = some edit) :
    edit = module.removal statement ∨
      ∃ first last, Rewrites statement edit first last := by
  unfold candidateEdit? at proposed
  split at proposed
  · next kind =>
    obtain ⟨clause, _, clause_eq, _, _, removed | rfl⟩ :=
      importEdit?_cases proposed
    · exact .inl removed
    · have child := Node.mem_children_of_namedChild? clause_eq
      exact .inr ⟨clause, clause, not_declaration_of_import kind, child, child,
        rfl, rfl, fun piece isPiece =>
          placed.piece_liesIn_clause occurs kind clause_eq isPiece⟩
  · split at proposed
    · next kind =>
      obtain ⟨_, removed | ⟨first, last, isFirst, isLast, rfl⟩⟩ :=
        variableEdit?_cases proposed
      · exact .inl removed
      · have children : (statement.namedChildren.filter
            (·.kind = "variable_declarator")).Sublist statement.children :=
          List.filter_sublist.trans List.filter_sublist
        have ordered := (placed.siblings _ _ occurs).sublist children
        refine .inr ⟨first, last, not_declaration_of_variable kind,
          children.subset (List.mem_of_head? isFirst),
          children.subset (List.mem_of_getLast? isLast), rfl, rfl, ?_⟩
        intro piece isPiece
        cases isPiece with
        | part imports => exact absurd kind (not_variable_of_import imports)
        | specifier imports => exact absurd kind (not_variable_of_import imports)
        | declarator _ listed declarator_kind =>
            refine within_of_ends ordered (fun node member => ?_) isFirst isLast
              (List.mem_filter.mpr ⟨listed, decide_eq_true declarator_kind⟩)
            exact placed.ordered _ _ (.child occurs (children.subset member))
    · obtain ⟨_, _, _, removed⟩ := declarationEdit?_cases proposed
      exact .inl removed

end Module

end ExportAudit
