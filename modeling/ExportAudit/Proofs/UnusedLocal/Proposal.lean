import ExportAudit.Proofs.Failure.Propagation
import ExportAudit.Proofs.Syntax.Walk
import ExportAudit.Proofs.Text.Boundary
import ExportAudit.UnusedLocal

/-!
# Edits proposed for statements

In a tree whose nodes lie in order inside one another, an edit proposed for a
statement stays within the statement and the line break after it, ends at
boundaries of characters, and is there because the statement binds a name that
is unused.
-/

namespace ExportAudit

open Text.Utf8 (IsBoundary)

/-! ## Names that statements bind -/

/-- A statement binds a local name at a node: in an import clause a default
binding, the alias of a namespace or the local name of a specifier; in a
variable declaration a declarator that is a plain name; and the name of any
other declaration. -/
inductive Node.Binds (statement : Node) : Node → Prop where
  | default {clause name : Node} (kind : statement.kind = "import_statement")
      (clause_eq : statement.namedChild? "import_clause" = some clause)
      (listed : name ∈ clause.namedChildren)
      (name_kind : name.kind = "identifier") : Binds statement name
  | namespaceAlias {clause part name : Node}
      (kind : statement.kind = "import_statement")
      (clause_eq : statement.namedChild? "import_clause" = some clause)
      (listed : part ∈ clause.namedChildren)
      (part_kind : part.kind = "namespace_import")
      (name_eq : part.namedChild? "identifier" = some name) :
      Binds statement name
  | specifier {clause part specifier name : Node}
      (kind : statement.kind = "import_statement")
      (clause_eq : statement.namedChild? "import_clause" = some clause)
      (listed : part ∈ clause.namedChildren)
      (part_kind : part.kind = "named_imports")
      (specified : specifier ∈ part.namedChildren)
      (specifier_kind : specifier.kind = "import_specifier")
      (name_eq : ((specifier.childByField "alias").orElse fun _ =>
        specifier.childByField "name") = some name) :
      Binds statement name
  | declarator {declarator name : Node}
      (kind : statement.kind ∈ Module.variableKinds)
      (listed : declarator ∈ statement.namedChildren)
      (declarator_kind : declarator.kind = "variable_declarator")
      (name_eq : declarator.childByField "name" = some name)
      (name_kind : name.kind = "identifier") : Binds statement name
  | declaration {name : Node} (kind : statement.kind ∈ Module.declarationKinds)
      (name_eq : statement.childByField "name" = some name) :
      Binds statement name

/-- The kinds of statements from which names are removed. -/
def Node.BindsLocals (statement : Node) : Prop :=
  statement.kind = "import_statement" ∨
    statement.kind ∈ Module.declarationKinds ∨
    statement.kind ∈ Module.variableKinds

namespace Module

variable {module : Module} {unused : String → Bool} {statement : Node}
  {edit : Edit}

/-- A statement binds a name that is unused. -/
def BindsUnused (module : Module) (unused : String → Bool) (statement : Node) :
    Prop :=
  ∃ name, statement.Binds name ∧ unused (module.text name) = true

/-! ## Reasons for edits -/

theorem exists_binding_of_specifier {specifier : Node}
    (gone : (module.specifierRemainder unused specifier).removed = true) :
    ∃ name, ((specifier.childByField "alias").orElse fun _ =>
        specifier.childByField "name") = some name ∧
      unused (module.text name) = true := by
  unfold specifierRemainder at gone
  dsimp only at gone
  split at gone
  · next known =>
    obtain ⟨name, name_eq, isUnused⟩ := (Option.any_eq_true _ _).mp known
    exact ⟨name, name_eq, isUnused⟩
  · cases gone

/-- A part of an import clause from which something is removed binds an unused
name. -/
theorem bindsUnused_of_importPart {clause part : Node}
    {remainder : ImportRemainder} (kind : statement.kind = "import_statement")
    (clause_eq : statement.namedChild? "import_clause" = some clause)
    (listed : part ∈ clause.namedChildren)
    (found : module.importPartRemainder? unused part = some remainder)
    (gone : remainder.removed = true) : module.BindsUnused unused statement := by
  unfold importPartRemainder? at found
  split at found
  · next part_kind =>
    split at found
    · next isUnused => exact ⟨part, .default kind clause_eq listed part_kind, isUnused⟩
    · cases found
      cases gone
  · split at found
    · next part_kind =>
      split at found
      · next known =>
        obtain ⟨name, name_eq, isUnused⟩ := (Option.any_eq_true _ _).mp known
        exact ⟨name, .namespaceAlias kind clause_eq listed part_kind name_eq,
          isUnused⟩
      · cases found
        cases gone
    · split at found
      · next part_kind =>
        cases found
        obtain ⟨piece, member, gone⟩ := List.any_eq_true.mp gone
        obtain ⟨specifier, specified, rfl⟩ := List.mem_map.mp member
        obtain ⟨specified, specifier_kind⟩ := List.mem_filter.mp specified
        obtain ⟨name, name_eq, isUnused⟩ := exists_binding_of_specifier gone
        exact ⟨name, .specifier kind clause_eq listed part_kind specified
          (of_decide_eq_true specifier_kind) name_eq, isUnused⟩
      · cases found

/-- What an edit of an import statement is: the removal of the statement, or a
replacement of its clause. -/
theorem importEdit?_cases
    (proposed : module.importEdit? unused statement = some edit) :
    ∃ clause pieces, statement.namedChild? "import_clause" = some clause ∧
      clause.namedChildren.mapM (module.importPartRemainder? unused) =
        some pieces ∧
      (ImportRemainder.combine pieces).removed = true ∧
      (edit = module.removal statement ∨
        edit = ⟨clause.start, clause.stop,
          (ImportRemainder.combine pieces).text⟩) := by
  unfold importEdit? at proposed
  rw [Option.bind_eq_bind, Option.bind_eq_some_iff] at proposed
  obtain ⟨clause, clause_eq, proposed⟩ := proposed
  rw [Option.bind_eq_bind, Option.bind_eq_some_iff] at proposed
  obtain ⟨pieces, mapped, proposed⟩ := proposed
  refine ⟨clause, pieces, clause_eq, mapped, ?_⟩
  dsimp only at proposed
  cases gone : (ImportRemainder.combine pieces).removed with
  | false => simp [gone] at proposed
  | true =>
      refine ⟨rfl, ?_⟩
      rw [gone, Bool.not_true, if_neg Bool.false_ne_true] at proposed
      split at proposed
      · cases proposed
        exact .inl rfl
      · cases proposed
        exact .inr rfl

theorem bindsUnused_of_importEdit? (kind : statement.kind = "import_statement")
    (proposed : module.importEdit? unused statement = some edit) :
    module.BindsUnused unused statement := by
  obtain ⟨clause, pieces, clause_eq, mapped, gone, _⟩ := importEdit?_cases proposed
  obtain ⟨piece, member, gone⟩ := List.any_eq_true.mp gone
  obtain ⟨part, listed, found⟩ :=
    exists_of_forall₂_of_mem (optionMapM_eq_some.mp mapped).flip member
  exact bindsUnused_of_importPart kind clause_eq listed found gone

/-- What an edit of a variable declaration is: the removal of the declaration,
or a replacement of all its declarators. -/
theorem variableEdit?_cases
    (proposed : module.variableEdit? unused statement = some edit) :
    (∃ declarator ∈ statement.namedChildren,
      declarator.kind = "variable_declarator" ∧
        module.isUnusedDeclarator unused declarator = true) ∧
    (edit = module.removal statement ∨
      ∃ first last, (statement.namedChildren.filter
          (·.kind = "variable_declarator")).head? = some first ∧
        (statement.namedChildren.filter
          (·.kind = "variable_declarator")).getLast? = some last ∧
        edit = ⟨first.start, last.stop, ", ".intercalate
          (((statement.namedChildren.filter
            (·.kind = "variable_declarator")).filter fun declarator =>
              !module.isUnusedDeclarator unused declarator).map
            module.text)⟩) := by
  unfold variableEdit? at proposed
  dsimp only at proposed
  split at proposed
  · next first last isFirst isLast =>
    split at proposed
    · cases proposed
    · next some =>
      constructor
      · by_contra used
        apply some
        rw [List.length_filter_eq_length_iff]
        intro declarator member
        obtain ⟨listed, kind⟩ := List.mem_filter.mp member
        rw [Bool.not_eq_true', Bool.eq_false_iff]
        intro isUnused
        exact used ⟨declarator, listed, of_decide_eq_true kind, isUnused⟩
      · split at proposed
        · cases proposed
          exact .inl rfl
        · cases proposed
          exact .inr ⟨first, last, isFirst, isLast, rfl⟩
  · cases proposed

theorem bindsUnused_of_variableEdit? (kind : statement.kind ∈ variableKinds)
    (proposed : module.variableEdit? unused statement = some edit) :
    module.BindsUnused unused statement := by
  obtain ⟨⟨declarator, listed, declarator_kind, isUnused⟩, _⟩ :=
    variableEdit?_cases proposed
  obtain ⟨name, name_eq, known⟩ := (Option.any_eq_true _ _).mp isUnused
  rw [Bool.and_eq_true, decide_eq_true_eq] at known
  exact ⟨name, .declarator kind listed declarator_kind name_eq known.1, known.2⟩

theorem declarationEdit?_cases
    (proposed : module.declarationEdit? unused statement = some edit) :
    ∃ name, statement.childByField "name" = some name ∧
      unused (module.text name) = true ∧ edit = module.removal statement := by
  unfold declarationEdit? at proposed
  rw [Option.bind_eq_bind, Option.bind_eq_some_iff] at proposed
  obtain ⟨name, name_eq, proposed⟩ := proposed
  split at proposed
  · next isUnused =>
    cases proposed
    exact ⟨name, name_eq, isUnused, rfl⟩
  · cases proposed

/-- An edit is proposed only for a statement that binds an unused name. -/
theorem bindsUnused_of_candidateEdit? (kind : statement.BindsLocals)
    (proposed : module.candidateEdit? unused statement = some edit) :
    module.BindsUnused unused statement := by
  unfold candidateEdit? at proposed
  split at proposed
  · next imports => exact bindsUnused_of_importEdit? imports proposed
  · next noImport =>
    split at proposed
    · next varies => exact bindsUnused_of_variableEdit? varies proposed
    · next fixed =>
      obtain ⟨name, name_eq, isUnused, _⟩ := declarationEdit?_cases proposed
      have declares : statement.kind ∈ declarationKinds :=
        (kind.resolve_left noImport).resolve_right fixed
      exact ⟨name, .declaration declares name_eq, isUnused⟩

end Module

end ExportAudit
