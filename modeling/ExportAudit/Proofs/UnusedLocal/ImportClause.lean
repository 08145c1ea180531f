import ExportAudit.Proofs.UnusedLocal.Pieces

/-!
# Edits of import clauses

An import clause has a default binding, a namespace, and specifiers in braces.
The edit of an import statement removes the pieces of its clause whose names are
unused and lists the others in their order, the specifiers in braces.

The parts of the clause have to be of these three kinds.  Any other part, such as
a comment between them, hides the whole statement: no edit is proposed for it.
-/

namespace ExportAudit

/-! ## Pieces of a clause -/

namespace Node

/-- A part of an import clause that is known to bind names. -/
def IsClausePart (part : Node) : Prop :=
  part.kind = "identifier" ∨ part.kind = "namespace_import" ∨
    part.kind = "named_imports"

/-- The pieces of a part of an import clause: the specifiers in braces, and any
other part as a whole. -/
def piecesOfPart (part : Node) : List Node :=
  if part.kind = "named_imports" then
    part.namedChildren.filter (·.kind = "import_specifier")
  else [part]

/-- The pieces of an import clause, in order. -/
def clausePieces (clause : Node) : List Node :=
  clause.namedChildren.flatMap piecesOfPart

variable {statement clause piece name : Node}

theorem mem_clausePieces :
    piece ∈ clause.clausePieces ↔
      ∃ part ∈ clause.namedChildren,
        (part.kind = "named_imports" ∧ piece ∈ part.namedChildren ∧
            piece.kind = "import_specifier") ∨
          (part.kind ≠ "named_imports" ∧ piece = part) := by
  rw [clausePieces, List.mem_flatMap]
  apply exists_congr
  intro part
  apply and_congr_right
  intro _
  unfold piecesOfPart
  split
  · next braces => simp [braces]
  · next plain => simp [plain]

/-- In a clause of known parts the pieces of the statement are those of the
clause. -/
theorem isPiece_iff_mem_clausePieces (kind : statement.kind = "import_statement")
    (clause_eq : statement.namedChild? "import_clause" = some clause)
    (known : ∀ part ∈ clause.namedChildren, part.IsClausePart) :
    statement.IsPiece piece ↔ piece ∈ clause.clausePieces := by
  rw [mem_clausePieces]
  constructor
  · intro isPiece
    cases isPiece with
    | part _ also listed part_kind =>
        cases also.symm.trans clause_eq
        refine ⟨piece, listed, .inr ⟨?_, rfl⟩⟩
        rcases part_kind with kind | kind <;> simp [kind]
    | specifier _ also listed part_kind specified specifier_kind =>
        cases also.symm.trans clause_eq
        exact ⟨_, listed, .inl ⟨part_kind, specified, specifier_kind⟩⟩
    | declarator varies => exact absurd varies (Module.not_variable_of_import kind)
  · rintro ⟨part, listed, ⟨braces, specified, specifier_kind⟩ | ⟨plain, rfl⟩⟩
    · exact .specifier kind clause_eq listed braces specified specifier_kind
    · have part_kind := known piece listed
      exact .part kind clause_eq listed
        (part_kind.imp_right fun other => other.resolve_right plain)

/-- An import statement binds the names of its pieces. -/
theorem binds_iff_exists_piece (kind : statement.kind = "import_statement") :
    statement.Binds name ↔
      ∃ piece, statement.IsPiece piece ∧ piece.bound? = some name := by
  constructor
  · intro binds
    rcases binds.declares_or_piece with ⟨declares, _⟩ | found
    · exact absurd declares (Module.not_declaration_of_import kind)
    · exact found
  · rintro ⟨piece, isPiece, bound⟩
    cases isPiece with
    | part kind clause_eq listed part_kind =>
        rcases part_kind with part_kind | part_kind
        · rw [bound?, if_pos part_kind] at bound
          cases bound
          exact .default kind clause_eq listed part_kind
        · have name_eq : piece.namedChild? "identifier" = some name := by
            simpa [bound?, part_kind] using bound
          exact .namespaceAlias kind clause_eq listed part_kind name_eq
    | specifier kind clause_eq listed part_kind specified specifier_kind =>
        have name_eq : ((piece.childByField "alias").orElse fun _ =>
            piece.childByField "name") = some name := by
          simpa [bound?, specifier_kind] using bound
        exact .specifier kind clause_eq listed part_kind specified
          specifier_kind name_eq
    | declarator varies => exact absurd varies (Module.not_variable_of_import kind)

end Node

namespace Module

variable {module : Module} {unused : String → Bool}
  {statement clause : Node} {ancestors : List Node}

/-! ## What is left of a clause -/

/-- Whether the name that a piece binds is unused. -/
def goes (module : Module) (unused : String → Bool) (piece : Node) : Bool :=
  piece.bound?.any fun name => unused (module.text name)

/-- The pieces of an import clause whose names are used, in order. -/
def keptPieces (module : Module) (unused : String → Bool) (pieces : List Node) :
    List Node :=
  pieces.filter fun piece => !module.goes unused piece

/-- What is left of pieces of an import clause. -/
def leftOf (module : Module) (unused : String → Bool) (pieces : List Node) :
    ImportRemainder where
  removed := pieces.any (module.goes unused)
  parts := ((module.keptPieces unused pieces).filter
    (·.kind ≠ "import_specifier")).map module.text
  specifiers := ((module.keptPieces unused pieces).filter
    (·.kind = "import_specifier")).map module.text

theorem leftOf_flatMap {α : Type} (values : List α) (pieces : α → List Node) :
    module.leftOf unused (values.flatMap pieces) =
      .combine (values.map fun value => module.leftOf unused (pieces value)) := by
  simp only [leftOf, keptPieces, ImportRemainder.combine, List.any_flatMap,
    List.filter_flatMap, List.map_flatMap, List.any_map, List.flatMap_map,
    Function.comp_def]

theorem specifierRemainder_eq {specifier : Node}
    (kind : specifier.kind = "import_specifier") :
    module.specifierRemainder unused specifier =
      module.leftOf unused [specifier] := by
  have bound : specifier.bound? =
      (specifier.childByField "alias").orElse fun _ =>
        specifier.childByField "name" := by
    simp [Node.bound?, kind]
  rw [specifierRemainder, ← bound]
  change (if module.goes unused specifier = true then ImportRemainder.gone
    else .specifier (module.text specifier)) = _
  cases drops : module.goes unused specifier with
  | true => simp [leftOf, keptPieces, drops, ImportRemainder.gone]
  | false => simp [leftOf, keptPieces, drops, kind, ImportRemainder.specifier]

/-- What is left of a known part of an import clause is what is left of its
pieces. -/
theorem importPartRemainder?_eq {part : Node} (known : part.IsClausePart) :
    module.importPartRemainder? unused part =
      some (module.leftOf unused part.piecesOfPart) := by
  have single (plain : part.kind ≠ "named_imports")
      (other : part.kind ≠ "import_specifier") :
      (if module.goes unused part then ImportRemainder.gone
        else .part (module.text part)) =
        module.leftOf unused part.piecesOfPart := by
    rw [Node.piecesOfPart, if_neg plain]
    cases drops : module.goes unused part <;>
      simp [leftOf, keptPieces, drops, other, ImportRemainder.gone,
        ImportRemainder.part]
  rcases known with kind | kind | kind
  · rw [← single (by simp [kind]) (by simp [kind])]
    simp [importPartRemainder?, goes, Node.bound?, kind]
  · rw [← single (by simp [kind]) (by simp [kind])]
    simp [importPartRemainder?, goes, Node.bound?, kind]
  · have braces : (part.namedChildren.filter
        (·.kind = "import_specifier")).map (module.specifierRemainder unused) =
        part.piecesOfPart.map fun piece => module.leftOf unused [piece] := by
      rw [Node.piecesOfPart, if_pos kind]
      apply List.map_congr_left
      intro specifier member
      exact specifierRemainder_eq
        (of_decide_eq_true (List.mem_filter.mp member).2)
    rw [← List.flatMap_singleton' part.piecesOfPart, leftOf_flatMap, ← braces]
    simp [importPartRemainder?, kind]

theorem mapM_importPartRemainder? {parts : List Node}
    (known : ∀ part ∈ parts, part.IsClausePart) :
    parts.mapM (module.importPartRemainder? unused) =
      some (parts.map fun part => module.leftOf unused part.piecesOfPart) := by
  rw [optionMapM_eq_some, List.forall₂_map_right_iff, List.forall₂_same]
  intro part listed
  exact importPartRemainder?_eq (known part listed)

theorem isEmpty_leftOf (pieces : List Node) :
    (module.leftOf unused pieces).isEmpty = true ↔
      module.keptPieces unused pieces = [] := by
  simp only [ImportRemainder.isEmpty, leftOf, List.isEmpty_map,
    Bool.and_eq_true, List.isEmpty_iff, List.filter_eq_nil_iff]
  rw [List.eq_nil_iff_forall_not_mem]
  constructor
  · rintro ⟨noPart, noSpecifier⟩ piece member
    by_cases kind : piece.kind = "import_specifier"
    · exact noSpecifier piece member (decide_eq_true kind)
    · exact noPart piece member (decide_eq_true kind)
  · intro none
    exact ⟨fun piece member => absurd member (none piece),
      fun piece member => absurd member (none piece)⟩

/-- The edit of an import statement with a clause of known parts. -/
theorem importEdit?_eq
    (clause_eq : statement.namedChild? "import_clause" = some clause)
    (known : ∀ part ∈ clause.namedChildren, part.IsClausePart) :
    module.importEdit? unused statement =
      if clause.clausePieces.any (module.goes unused) then
        if module.keptPieces unused clause.clausePieces = [] then
          some (module.removal statement)
        else some ⟨clause.start, clause.stop,
          (module.leftOf unused clause.clausePieces).text⟩
      else none := by
  have left : ImportRemainder.combine (clause.namedChildren.map fun part =>
      module.leftOf unused part.piecesOfPart) =
      module.leftOf unused clause.clausePieces :=
    (leftOf_flatMap _ _).symm
  simp only [importEdit?, clause_eq, mapM_importPartRemainder? known, left,
    Option.bind_eq_bind, Option.bind_some, isEmpty_leftOf]
  cases drops : clause.clausePieces.any (module.goes unused) with
  | true => simp [leftOf, drops]
  | false => simp [leftOf, drops]

/-- A part that is not known to bind names hides its clause. -/
theorem importEdit?_eq_none_of_part {part : Node}
    (clause_eq : statement.namedChild? "import_clause" = some clause)
    (listed : part ∈ clause.namedChildren) (unknown : ¬ part.IsClausePart) :
    module.importEdit? unused statement = none := by
  rw [Option.eq_none_iff_forall_ne_some]
  intro edit proposed
  obtain ⟨found, pieces, found_eq, mapped, _⟩ := importEdit?_cases proposed
  cases found_eq.symm.trans clause_eq
  obtain ⟨remainder, _, left⟩ :=
    exists_of_forall₂_of_mem (optionMapM_eq_some.mp mapped) listed
  simp only [Node.IsClausePart, not_or] at unknown
  simp [importPartRemainder?, unknown] at left

/-! ## Import statements of a module -/

/-- A local name occurs no more than once in a module, and it is not the one
that markup elements refer to without writing it. -/
def IsUnusedLocal (module : Module) (name : String) : Prop :=
  module.occurrences name ≤ 1 ∧ ¬ (module.hasMarkup = true ∧ name = "React")

theorem isUnused_iff {name : String} :
    isUnused module.identifiers module.hasMarkup name = true ↔
      module.IsUnusedLocal name := by
  unfold isUnused IsUnusedLocal occurrences
  cases module.hasMarkup with
  | false => simp
  | true => simp [and_comm]

/-- An import statement with a clause stands in a module where a grammar puts
one: below ancestors none of which is ambient, not directly in an export
statement, and in a program only as a statement of the module. -/
structure ImportsAt (module : Module) (ancestors : List Node)
    (statement clause : Node) : Prop where
  below : module.root.OccursBelow ancestors statement
  kind : statement.kind = "import_statement"
  clause_eq : statement.namedChild? "import_clause" = some clause
  notAmbient : ∀ ancestor ∈ ancestors, ancestor.kind ≠ "ambient_declaration"
  notExported : ∀ parent ∈ ancestors.head?, parent.kind ≠ "export_statement"
  topLevel : ∀ parent ∈ ancestors.head?, parent.kind = "program" →
    statement ∈ module.statements

/-- An edit of an import statement leaves the kept pieces of its clause, in
their order: those that bind no unused name.  If none is kept, the statement
goes; otherwise its clause lists them. -/
structure Leaves (module : Module) (statement clause : Node)
    (kept : List Node) (edit : Edit) : Prop where
  inOrder : kept.Sublist clause.clausePieces
  used : ∀ piece, piece ∈ kept ↔ statement.IsPiece piece ∧
    ∀ name, piece.bound? = some name →
      ¬ module.IsUnusedLocal (module.text name)
  removal : kept = [] → edit = module.removal statement
  rewriting : kept ≠ [] → edit = ⟨clause.start, clause.stop,
    ImportRemainder.text ⟨true,
      (kept.filter (·.kind ≠ "import_specifier")).map module.text,
      (kept.filter (·.kind = "import_specifier")).map module.text⟩⟩

theorem ImportsAt.mem_candidates
    (imports : module.ImportsAt ancestors statement clause) :
    statement ∈ module.candidates := by
  have visited : ⟨ancestors.head?, statement⟩ ∈
      traverse isAmbient [⟨none, module.root⟩] := by
    apply Node.mem_traverse_of_occursBelow imports.below
    · intro ancestor listed
      exact decide_eq_false (imports.notAmbient ancestor listed)
    · simp [isAmbient, imports.kind]
  refine List.mem_map.mpr ⟨_, List.mem_filter.mpr ⟨visited, ?_⟩, rfl⟩
  refine isCandidate_iff.mpr ⟨imports.notExported, ?_, .inl imports.kind⟩
  -- A script has no import statement at its top level.
  intro script parent isParent program
  have top := imports.topLevel parent isParent program
  have shared := script
  simp only [isScript, Bool.not_eq_true', List.any_eq_false] at shared
  exact shared statement top (by simp [imports.kind])

theorem goes_iff {piece : Node} :
    module.goes (isUnused module.identifiers module.hasMarkup) piece = true ↔
      ∃ name, piece.bound? = some name ∧
        module.IsUnusedLocal (module.text name) := by
  simp only [goes, Option.any_eq_true, isUnused_iff]

theorem ImportsAt.candidateEdit?_eq
    (imports : module.ImportsAt ancestors statement clause) :
    module.candidateEdit? unused statement =
      module.importEdit? unused statement := by
  rw [candidateEdit?, if_pos imports.kind]

/-- A statement with a clause of known parts binds an unused name if a piece of
its clause goes. -/
theorem ImportsAt.any_goes_iff
    (imports : module.ImportsAt ancestors statement clause)
    (known : ∀ part ∈ clause.namedChildren, part.IsClausePart) :
    clause.clausePieces.any
        (module.goes (isUnused module.identifiers module.hasMarkup)) = true ↔
      ∃ name, statement.Binds name ∧
        module.IsUnusedLocal (module.text name) := by
  rw [List.any_eq_true]
  constructor
  · rintro ⟨piece, member, drops⟩
    obtain ⟨name, bound, isUnused⟩ := goes_iff.mp drops
    have isPiece := (Node.isPiece_iff_mem_clausePieces imports.kind
      imports.clause_eq known).mpr member
    exact ⟨name, (Node.binds_iff_exists_piece imports.kind).mpr
      ⟨piece, isPiece, bound⟩, isUnused⟩
  · rintro ⟨name, binds, isUnused⟩
    obtain ⟨piece, isPiece, bound⟩ :=
      (Node.binds_iff_exists_piece imports.kind).mp binds
    have member := (Node.isPiece_iff_mem_clausePieces imports.kind
      imports.clause_eq known).mp isPiece
    exact ⟨piece, member, goes_iff.mpr ⟨name, bound, isUnused⟩⟩

theorem ImportsAt.mem_keptPieces
    (imports : module.ImportsAt ancestors statement clause)
    (known : ∀ part ∈ clause.namedChildren, part.IsClausePart) (piece : Node) :
    piece ∈ module.keptPieces (isUnused module.identifiers module.hasMarkup)
        clause.clausePieces ↔
      statement.IsPiece piece ∧ ∀ name, piece.bound? = some name →
        ¬ module.IsUnusedLocal (module.text name) := by
  rw [keptPieces, List.mem_filter, Bool.not_eq_true', Bool.eq_false_iff, ne_eq,
    goes_iff, Node.isPiece_iff_mem_clausePieces imports.kind imports.clause_eq
      known]
  simp only [not_exists, not_and]

/-- The edit of an import statement that binds an unused name. -/
theorem ImportsAt.exists_edit
    (imports : module.ImportsAt ancestors statement clause)
    (known : ∀ part ∈ clause.namedChildren, part.IsClausePart)
    (binds : ∃ name, statement.Binds name ∧
      module.IsUnusedLocal (module.text name)) :
    ∃ edit kept, module.candidateEdit?
        (isUnused module.identifiers module.hasMarkup) statement = some edit ∧
      module.Leaves statement clause kept edit := by
  have goes := (imports.any_goes_iff known).mpr binds
  have edit_eq := @importEdit?_eq module
    (isUnused module.identifiers module.hasMarkup) _ _ imports.clause_eq known
  rw [if_pos goes, ← imports.candidateEdit?_eq] at edit_eq
  have mem_kept := imports.mem_keptPieces known
  generalize kept_eq : module.keptPieces
    (isUnused module.identifiers module.hasMarkup) clause.clausePieces = kept
    at edit_eq mem_kept
  have inOrder : kept.Sublist clause.clausePieces :=
    kept_eq ▸ List.filter_sublist
  by_cases empty : kept = []
  · rw [if_pos empty] at edit_eq
    exact ⟨_, kept, edit_eq, inOrder, mem_kept, fun _ => rfl,
      fun some => absurd empty some⟩
  · rw [if_neg empty] at edit_eq
    refine ⟨_, kept, edit_eq, inOrder, mem_kept, fun none => absurd none empty,
      fun _ => ?_⟩
    rw [leftOf, goes, kept_eq]

/-- An import statement that binds an unused name yields an edit that removes all
such names and leaves the others in order, if its clause has known parts only;
one that binds no unused name yields none.  A part of another kind, such as a
comment, keeps the statement from yielding any edit. -/
theorem ImportsAt.edit_leaves_used
    (imports : module.ImportsAt ancestors statement clause) :
    statement ∈ module.candidates ∧
    ((∀ part ∈ clause.namedChildren, part.IsClausePart) →
      ((∃ name, statement.Binds name ∧
          module.IsUnusedLocal (module.text name)) →
        ∃ edit ∈ module.proposedEdits, ∃ kept,
          module.candidateEdit?
            (isUnused module.identifiers module.hasMarkup) statement =
              some edit ∧
          module.Leaves statement clause kept edit) ∧
      ((∀ name, statement.Binds name →
          ¬ module.IsUnusedLocal (module.text name)) →
        module.candidateEdit?
          (isUnused module.identifiers module.hasMarkup) statement = none)) ∧
    ((∃ part ∈ clause.namedChildren, ¬ part.IsClausePart) →
      module.candidateEdit?
        (isUnused module.identifiers module.hasMarkup) statement = none) := by
  have candidate := imports.mem_candidates
  refine ⟨candidate, fun known => ⟨?_, ?_⟩, ?_⟩
  · intro binds
    obtain ⟨edit, kept, proposed, leaves⟩ := imports.exists_edit known binds
    exact ⟨edit, List.mem_filterMap.mpr ⟨statement, candidate, proposed⟩, kept,
      proposed, leaves⟩
  · intro none
    rw [imports.candidateEdit?_eq, importEdit?_eq imports.clause_eq known,
      if_neg]
    rw [imports.any_goes_iff known]
    rintro ⟨name, binds, isUnused⟩
    exact none name binds isUnused
  · rintro ⟨part, listed, unknown⟩
    rw [imports.candidateEdit?_eq]
    exact importEdit?_eq_none_of_part imports.clause_eq listed unknown

/-! ### A clause with a comment in it -/

/-- The clause of an import of `d`, `a` and `b`. -/
def plainClause : Node :=
  .named "import_clause" 7 18 none [
    .named "identifier" 7 8 none [],
    .named "named_imports" 10 18 none [
      .named "import_specifier" 12 13 none [
        .named "identifier" 12 13 "name" []],
      .named "import_specifier" 15 16 none [
        .named "identifier" 15 16 "name" []]]]

/-- An import of `d`, `a` and `b`. -/
def plainImport : Node :=
  .named "import_statement" 0 28 none [
    plainClause, .named "string" 24 27 "source" []]

/-- The clause of an import of `e` and `f`, with a comment between them. -/
def commentedClause : Node :=
  .named "import_clause" 36 52 none [
    .named "identifier" 36 37 none [],
    .named "comment" 39 46 none [],
    .named "named_imports" 47 52 none [
      .named "import_specifier" 49 50 none [
        .named "identifier" 49 50 "name" []]]]

/-- An import of `e` and `f`, with a comment between them. -/
def commentedImport : Node :=
  .named "import_statement" 29 62 none [
    commentedClause, .named "string" 58 61 "source" []]

/-- A module with both imports that uses `b` and `f`. -/
def commented : Module :=
  ⟨⟨["a.ts"]⟩, Text.Utf8.encode ("import d, \x7b a, b \x7d from 'x';\n" ++
      "import e, /* c */ \x7b f \x7d from 'y';\nb();\nf();\n"), .typescript,
    .named "program" 0 73 none [
      plainImport,
      commentedImport,
      .named "expression_statement" 63 67 none [
        .named "call_expression" 63 66 none [
          .named "identifier" 63 64 "function" []]],
      .named "expression_statement" 68 72 none [
        .named "call_expression" 68 71 none [
          .named "identifier" 68 69 "function" []]]]⟩

theorem identifiers_commented :
    commented.identifiers = ["d", "a", "b", "e", "f", "b", "f"] := by
  unfold identifiers
  rw [nodes_eq]
  decide

theorem hasMarkup_commented : commented.hasMarkup = false := by
  unfold hasMarkup
  rw [nodes_eq]
  decide

theorem importsAt_commented :
    commented.ImportsAt [commented.root] plainImport plainClause ∧
      commented.ImportsAt [commented.root] commentedImport commentedClause := by
  have first : plainImport ∈ commented.root.children := List.mem_cons_self ..
  have second : commentedImport ∈ commented.root.children :=
    List.mem_cons_of_mem _ (List.mem_cons_self ..)
  constructor
  · exact ⟨.child .root first, rfl, rfl, by decide, by decide,
      fun _ _ _ => List.mem_filter.mpr ⟨first, rfl⟩⟩
  · exact ⟨.child .root second, rfl, rfl, by decide, by decide,
      fun _ _ _ => List.mem_filter.mpr ⟨second, rfl⟩⟩

/-- Of the first import `d` and `a` go and `b` is left.  Of the second nothing
goes, though `e` is unused as well. -/
theorem edit_leaves_used_commented :
    (commented.ImportsAt [commented.root] plainImport plainClause ∧
      commented.ImportsAt [commented.root] commentedImport commentedClause) ∧
    (∃ edit ∈ commented.proposedEdits, ∃ kept,
      commented.candidateEdit?
        (isUnused commented.identifiers commented.hasMarkup) plainImport =
          some edit ∧
      commented.Leaves plainImport plainClause kept edit ∧
      edit = ⟨7, 18, "\x7b b \x7d"⟩) ∧
    commented.candidateEdit?
      (isUnused commented.identifiers commented.hasMarkup) commentedImport =
        none := by
  obtain ⟨plain, hidden⟩ := importsAt_commented
  have known : ∀ part ∈ plainClause.namedChildren, part.IsClausePart := by
    unfold Node.IsClausePart
    decide
  have binds : ∃ name, plainImport.Binds name ∧
      commented.IsUnusedLocal (commented.text name) := by
    refine ⟨.named "identifier" 7 8 none [],
      .default rfl rfl (List.mem_cons_self ..) rfl, ?_, ?_⟩
    · rw [occurrences, identifiers_commented]
      decide
    · simp [hasMarkup_commented]
  obtain ⟨edit, listed, kept, proposed, leaves⟩ :=
    (plain.edit_leaves_used.2.1 known).1 binds
  refine ⟨⟨plain, hidden⟩, ⟨edit, listed, kept, proposed, leaves, ?_⟩, ?_⟩
  · rw [identifiers_commented, hasMarkup_commented] at proposed
    have computed : commented.candidateEdit?
        (isUnused ["d", "a", "b", "e", "f", "b", "f"] false) plainImport =
          some ⟨7, 18, "\x7b b \x7d"⟩ := by
      decide
    exact Option.some.inj (proposed.symm.trans computed)
  · refine hidden.edit_leaves_used.2.2 ⟨.named "comment" 39 46 none [],
      List.mem_cons_of_mem _ (List.mem_cons_self ..), ?_⟩
    unfold Node.IsClausePart
    decide

end Module

end ExportAudit
