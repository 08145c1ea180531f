import ExportAudit.Proofs.Analysis.CallImport

/-!
# Names of re-exports

A re-export is read twice: for the names that its module exports by it, and for
the names that it passes on from another module.  Both readings find the same
names in the same order, so under the transitive policy what is used of the
module by such a name is used of the other module as well.

A comment beside the name of a namespace makes the readings differ.  The first
takes it for one more name, the second for the only name.
-/

namespace ExportAudit

/-! ## The form of a re-export -/

namespace Node

/-- Whether a part of an export statement is a list of names or a namespace. -/
def isExportClause (part : Node) : Bool :=
  part.kind = "export_clause" || part.kind = "namespace_export"

/-- The lists of names and the namespaces of an export statement. -/
def exportClauses (statement : Node) : List Node :=
  statement.namedChildren.filter (·.isExportClause)

/-- A statement exports no default and no declaration.  It has no more than one
clause, and the clause of a namespace has one name. -/
structure IsReexport (statement : Node) : Prop where
  kind : statement.kind = "export_statement"
  notDefault : Module.exportsDefault statement = false
  noDeclaration : statement.childByField "declaration" = none
  oneClause : statement.exportClauses.length ≤ 1
  oneName : ∀ clause ∈ statement.exportClauses,
    clause.kind = "namespace_export" →
      ∃ name, clause.namedChildren.filter (!·.isComment) = [name]

/-- A comment stands beside the name of a namespace that a statement exports. -/
def CommentsNamespace (statement : Node) : Prop :=
  ∃ clause ∈ statement.exportClauses, clause.kind = "namespace_export" ∧
    ∃ child ∈ clause.namedChildren, child.isComment = true

end Node

namespace Module

variable {module : Module} {resolver : Resolver} {statement clause : Node}
  {target : Location}

/-! ## The names that a statement exports -/

/-- The names that a module exports by one of its statements. -/
def exportedNames (module : Module) (statement : Node) : List String :=
  (module.statementContributions module.localDeclarations statement).map
    (·.name)

/-- The names of a clause behind which no local declarations stand. -/
def clauseNames (module : Module) (clause : Node) : List String :=
  (module.clauseContributions [] clause).map (·.name)

theorem exportedNames_eq (reexports : statement.IsReexport)
    (source : (statement.childByField "source").isSome = true) :
    module.exportedNames statement =
      statement.exportClauses.flatMap module.clauseNames := by
  have nothing : ∀ part ∈ statement.namedChildren,
      part.isExportClause = false → module.clauseNames part = [] := by
    intro part _ other
    simp only [Node.isExportClause, Bool.or_eq_false_iff,
      decide_eq_false_iff_not] at other
    simp [clauseNames, clauseContributions, other]
  rw [Node.exportClauses, flatMap_filter_eq nothing]
  simp only [exportedNames, statementContributions, reexports.notDefault,
    reexports.noDeclaration, source, if_true, Bool.false_eq_true, if_false,
    List.map_flatMap]
  rfl

/-- A specifier exports the name that it passes on. -/
theorem map_name_specifierContributions (specifier : Node) :
    (module.specifierContributions [] specifier).map (·.name) =
      ((specifier.childByField "name").map fun nameNode =>
        module.specifierName
          ((specifier.childByField "alias").getD nameNode)).toList := by
  unfold specifierContributions
  cases specifier.childByField "name" with
  | none => rfl
  | some nameNode => rfl

theorem clauseNames_list (kind : clause.kind = "export_clause") :
    module.clauseNames clause =
      (module.clauseForwards clause).map (·.exported) := by
  simp only [clauseNames, clauseContributions, kind, if_true, List.map_flatMap,
    map_name_specifierContributions]
  rw [clauseForwards, List.map_filterMap, List.filterMap_eq_flatMap_toList]
  simp only [Option.map_map, Function.comp_def]

theorem clauseNames_namespace (kind : clause.kind = "namespace_export") :
    module.clauseNames clause =
      clause.namedChildren.map module.specifierName := by
  simp [clauseNames, clauseContributions, kind]

/-! ## The names that a statement passes on -/

/-- What a re-export passes on, by its clauses: everything without one, the
names of a list, or a namespace. -/
inductive PassesOn (module : Module) (statement : Node) :
    ReferenceKind → List Forward → Prop where
  | star (clauses : statement.exportClauses = []) :
      PassesOn module statement .starForward []
  | list {clause : Node} (clauses : statement.exportClauses = [clause])
      (kind : clause.kind = "export_clause") :
      PassesOn module statement .forward (module.clauseForwards clause)
  | space {clause name : Node} {others : List Node}
      (clauses : statement.exportClauses = [clause])
      (kind : clause.kind = "namespace_export")
      (children : clause.namedChildren = name :: others) :
      PassesOn module statement .namespaceForward
        [⟨"*", module.specifierName name⟩]

theorem exists_forwardReference? (reexports : statement.IsReexport)
    (resolves : module.target? resolver (statement.childByField "source") =
      some target) :
    ∃ reference, module.forwardReference? resolver statement =
        some reference ∧ reference.target = target ∧
      module.PassesOn statement reference.kind reference.forwards := by
  have first : statement.namedChildren.find? (fun child =>
      child.kind = "export_clause" || child.kind = "namespace_export") =
      statement.exportClauses.head? := List.head?_filter.symm
  cases clauses : statement.exportClauses with
  | nil =>
      refine ⟨module.reference statement target .all .starForward [], ?_, rfl,
        .star clauses⟩
      simp [forwardReference?, resolves, first, clauses]
  | cons clause others =>
      have alone : others = [] := by
        have atMost := reexports.oneClause
        rw [clauses, List.length_cons] at atMost
        exact List.eq_nil_of_length_eq_zero (by omega)
      subst alone
      have listed : clause ∈ statement.exportClauses := by simp [clauses]
      rw [clauses, List.head?_cons] at first
      by_cases kind : clause.kind = "export_clause"
      · refine ⟨module.reference statement target
          (.ofList ((module.clauseForwards clause).map (·.imported))) .forward
          (module.clauseForwards clause), ?_, rfl, .list clauses kind⟩
        simp [forwardReference?, resolves, first, kind]
      · have space : clause.kind = "namespace_export" := by
          have known := (List.mem_filter.mp listed).2
          simpa [Node.isExportClause, kind] using known
        obtain ⟨name, named⟩ := reexports.oneName clause listed space
        cases children : clause.namedChildren with
        | nil => simp [children] at named
        | cons head rest =>
            refine ⟨module.reference statement target .all .namespaceForward
              [⟨"*", module.specifierName head⟩], ?_, rfl,
              .space clauses space children⟩
            simp [forwardReference?, resolves, first, kind, children]

/-- The node of a re-export makes the reference of a re-export. -/
theorem nodeReference?_of_reexport (kind : statement.kind = "export_statement")
    (source : (statement.childByField "source").isSome = true) :
    module.nodeReference? resolver statement =
      module.forwardReference? resolver statement := by
  simp [nodeReference?, kind, source]

theorem isSome_source_of_target?
    (resolves : module.target? resolver (statement.childByField "source") =
      some target) :
    (statement.childByField "source").isSome = true := by
  cases source : statement.childByField "source" with
  | none => simp [target?, source] at resolves
  | some specifier => rfl

/-! ## Agreement -/

variable {kind : ReferenceKind} {forwards : List Forward}

/-- A namespace is passed on under one name. -/
theorem PassesOn.eq_singleton {forward : Forward}
    (passes : module.PassesOn statement kind forwards)
    (space : kind = .namespaceForward) (listed : forward ∈ forwards) :
    forwards = [forward] := by
  cases passes with
  | star => cases space
  | list => cases space
  | space => rw [List.mem_singleton.mp listed]

/-- Without a comment beside the name of a namespace, a statement exports exactly
the names under which it passes names on. -/
theorem PassesOn.exportedNames_eq
    (passes : module.PassesOn statement kind forwards)
    (reexports : statement.IsReexport)
    (source : (statement.childByField "source").isSome = true)
    (plain : ¬ statement.CommentsNamespace) :
    module.exportedNames statement = forwards.map (·.exported) := by
  rw [Module.exportedNames_eq reexports source]
  cases passes with
  | star clauses => rw [clauses, List.flatMap_nil, List.map_nil]
  | list clauses kind =>
      rw [clauses, List.flatMap_singleton, clauseNames_list kind]
  | @space clause name others clauses kind children =>
      have listed : clause ∈ statement.exportClauses := by simp [clauses]
      obtain ⟨only, named⟩ := reexports.oneName clause listed kind
      have uncommented : clause.namedChildren.filter (!·.isComment) =
          clause.namedChildren := by
        rw [List.filter_eq_self]
        intro child member
        rw [Bool.not_eq_true', Bool.eq_false_iff]
        intro comment
        exact plain ⟨clause, listed, kind, child, member, comment⟩
      rw [clauses, List.flatMap_singleton, clauseNames_namespace kind]
      rw [uncommented, children] at named
      cases named
      rw [children]
      rfl

/-- With a comment beside the name of a namespace, a statement exports several
names and passes on the namespace under the first of them only. -/
theorem PassesOn.take_exportedNames
    (passes : module.PassesOn statement kind forwards)
    (reexports : statement.IsReexport)
    (source : (statement.childByField "source").isSome = true)
    (commented : statement.CommentsNamespace) :
    2 ≤ (module.exportedNames statement).length ∧
      forwards.map (·.exported) = (module.exportedNames statement).take 1 := by
  obtain ⟨clause, listed, space, child, member, comment⟩ := commented
  rw [Module.exportedNames_eq reexports source]
  cases passes with
  | star clauses =>
      rw [clauses] at listed
      cases listed
  | list clauses kind =>
      rw [clauses, List.mem_singleton] at listed
      subst listed
      simp [space] at kind
  | @space other name others clauses _ children =>
      obtain ⟨only, named⟩ := reexports.oneName clause listed space
      rw [clauses, List.mem_singleton] at listed
      subst listed
      rw [clauses, List.flatMap_singleton, clauseNames_namespace space, children]
      refine ⟨?_, rfl⟩
      rw [List.length_map, List.length_cons]
      by_contra short
      have alone : others = [] := List.eq_nil_of_length_eq_zero (by omega)
      subst alone
      rw [children, List.mem_singleton] at member
      subst member
      simp [children, comment] at named

end Module

/-! ## Use of the exported names -/

/-- What is passed on under a name is used: the name behind it, or everything
where it stands for a namespace. -/
def Reference.HandsOn (reference : Reference Location) (forward : Forward)
    (usage : Usage) : Prop :=
  (reference.kind = .forward → forward.imported ∈ usage) ∧
    (reference.kind = .namespaceForward → usage = .all)

namespace Project

variable {project : Project} {store : Store} {module : Module}
  {statement : Node} {reference : Reference Location}

/-- Under the transitive policy a re-export of a loaded module hands on the use
of the names under which it passes names on. -/
theorem handsOn_of_mem_usage (loaded : module ∈ project.loaded store)
    (target : reference.target ∈ project.loadedLocations store)
    (made : reference ∈ module.references project.resolver)
    (passes : module.PassesOn statement reference.kind reference.forwards)
    {forward : Forward} (listed : forward ∈ reference.forwards)
    (used : forward.exported ∈
      (project.usageIndex store .transitive).usage module.location) :
    reference.HandsOn forward
      ((project.usageIndex store .transitive).usage reference.target) := by
  have kept : reference.Kept (project.loadedLocations store)
      (project.references store) :=
    kept_iff.mpr ⟨List.mem_flatMap.mpr ⟨module, loaded, made⟩, target⟩
  have closed := Graph.settled_closed (List.Perm.refl _)
    (Graph.settles_settledUsage (Graph.build
      (project.loadedLocations store) (project.references store)))
  rw [← Module.source_of_mem_references made, usageIndex_eq] at used
  rw [usageIndex_eq]
  constructor
  · intro kind
    have passed := closed.passed reference kept (by rw [kind]; rfl)
    exact (Usage.le_iff.mp passed).2 _
      (Reference.mem_forwarded_of_forward kind listed used)
  · intro kind
    have passed := closed.passed reference kept (by rw [kind]; rfl)
    have name : forward.exported = reference.namespaceName := by
      rw [Reference.namespaceName, passes.eq_singleton kind listed]
    rw [name] at used
    exact (Usage.le_iff.mp passed).1
      (Reference.forwarded_of_namespace kind used)

end Project

/-- The names that a module exports by a re-export are, in order, the names under
which the reference of the re-export passes names on.  So under the transitive
policy a use of such a name is handed on to the other module.  Only a comment
beside the name of a namespace makes the names differ. -/
theorem Module.reexport_agrees {module : Module} {resolver : Resolver}
    {statement : Node} {target : Location}
    (top : statement ∈ module.statements) (reexports : statement.IsReexport)
    (resolves : module.target? resolver (statement.childByField "source") =
      some target) :
    ∃ reference ∈ module.references resolver,
      module.nodeReference? resolver statement = some reference ∧
      reference.target = target ∧
      module.PassesOn statement reference.kind reference.forwards ∧
      (¬ statement.CommentsNamespace →
        module.exportedNames statement =
          reference.forwards.map (·.exported)) ∧
      (statement.CommentsNamespace →
        2 ≤ (module.exportedNames statement).length ∧
          reference.forwards.map (·.exported) =
            (module.exportedNames statement).take 1) ∧
      ∀ (project : Project) (store : Store), project.resolver = resolver →
        module ∈ project.loaded store →
        target ∈ project.loadedLocations store →
          ∀ forward ∈ reference.forwards,
            forward.exported ∈
              (project.usageIndex store .transitive).usage module.location →
            reference.HandsOn forward
              ((project.usageIndex store .transitive).usage target) := by
  have source := isSome_source_of_target? resolves
  obtain ⟨reference, made, rfl, passes⟩ :=
    exists_forwardReference? reexports resolves
  rw [← nodeReference?_of_reexport reexports.kind source] at made
  have occurs : module.root.Occurs (some module.root) statement :=
    .child .root (List.mem_of_mem_filter top)
  have listed := mem_references_of_occurs occurs made
  refine ⟨reference, listed, made, rfl, passes,
    passes.exportedNames_eq reexports source,
    passes.take_exportedNames reexports source, ?_⟩
  rintro project store rfl loaded target forward member used
  exact Project.handsOn_of_mem_usage loaded target listed passes member used

/-! ### Two re-exports with comments -/

/-- A list of one name, with a comment in it. -/
def commentedList : Node :=
  .named "export_clause" 7 19 none [
    .named "comment" 8 12 none [],
    .named "export_specifier" 12 18 none [
      .named "identifier" 12 13 "name" [],
      .named "identifier" 17 18 "alias" []]]

/-- A namespace with a comment in front of its name. -/
def commentedSpace : Node :=
  .named "namespace_export" 38 47 none [
    .named "comment" 42 46 none [],
    .named "identifier" 46 47 none []]

/-- A re-export of the list. -/
def listReexport : Node :=
  .named "export_statement" 0 30 none [
    commentedList, .named "string" 25 30 "source" []]

/-- A re-export of the namespace. -/
def spaceReexport : Node :=
  .named "export_statement" 31 58 none [
    commentedSpace, .named "string" 53 58 "source" []]

/-- A module with both re-exports. -/
def reexporting : Module :=
  ⟨importing.location, Text.Utf8.encode
      ("export \x7b/**/a as x\x7d from './a'\n" ++
        "export * as/**/n from './a'"),
    .typescript, .named "program" 0 58 none [listReexport, spaceReexport]⟩

theorem target?_reexporting {specifier : Node}
    (literal : reexporting.literalValue? specifier = some "./a") :
    reexporting.target? twoModules.resolver (some specifier) =
      some exporting.location :=
  Module.target?_eq_some literal (by decide) (by decide)

theorem isReexport_listReexport : listReexport.IsReexport := by
  refine ⟨rfl, rfl, rfl, by decide, fun clause listed space => ?_⟩
  cases List.mem_singleton.mp
    (listed : clause ∈ [commentedList])
  exact absurd space (by decide)

theorem isReexport_spaceReexport : spaceReexport.IsReexport := by
  refine ⟨rfl, rfl, rfl, by decide, fun clause listed _ => ?_⟩
  cases List.mem_singleton.mp
    (listed : clause ∈ [commentedSpace])
  exact ⟨_, rfl⟩

/-- The comment in the list has no effect.  The comment beside the name of the
namespace is exported as one more name, and it is the name under which the
namespace is passed on. -/
theorem reexport_agrees_commented :
    (∃ reference ∈ reexporting.references twoModules.resolver,
      reexporting.nodeReference? twoModules.resolver listReexport =
        some reference ∧
      reexporting.exportedNames listReexport =
        reference.forwards.map (·.exported) ∧
      reexporting.exportedNames listReexport = ["x"]) ∧
    ∃ reference ∈ reexporting.references twoModules.resolver,
      reexporting.nodeReference? twoModules.resolver spaceReexport =
        some reference ∧
      reexporting.exportedNames spaceReexport = ["/**/", "n"] ∧
      reference.forwards.map (·.exported) = ["/**/"] := by
  constructor
  · have plain : ¬ listReexport.CommentsNamespace := by
      rintro ⟨clause, listed, space, _⟩
      cases List.mem_singleton.mp (listed : clause ∈ [commentedList])
      exact absurd space (by decide)
    obtain ⟨reference, listed, made, _, _, agree, _⟩ :=
      Module.reexport_agrees (List.mem_cons_self ..) isReexport_listReexport
        (target?_reexporting (by decide))
    exact ⟨reference, listed, made, agree plain, by decide⟩
  · have commented : spaceReexport.CommentsNamespace :=
      ⟨commentedSpace, List.mem_cons_self .., rfl, _, List.mem_cons_self ..,
        rfl⟩
    obtain ⟨reference, listed, made, _, _, _, differ, _⟩ :=
      Module.reexport_agrees (List.mem_cons_of_mem _ (List.mem_cons_self ..))
        isReexport_spaceReexport (target?_reexporting (by decide))
    have names : reexporting.exportedNames spaceReexport = ["/**/", "n"] := by
      decide
    exact ⟨reference, listed, made, names, by rw [(differ commented).2, names]; rfl⟩

end ExportAudit
