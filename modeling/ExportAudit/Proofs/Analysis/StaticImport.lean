import ExportAudit.Proofs.Analysis.Direct
import ExportAudit.Proofs.Analysis.Warnings
import ExportAudit.Proofs.Reference.NamespaceUse

/-!
# Static imports keep exports

A name that a module imports by a static import is never reported as unused in
the module it is imported from.  A name is imported by a specifier, by a default
binding, or by an access through the alias of a namespace; and all names are
imported where an occurrence of the alias cannot be attributed to names.
-/

namespace ExportAudit

namespace Module

/-! ## What an import statement imports -/

/-- An import statement with a clause, anywhere in a module, names the module at
a location. -/
inductive ImportsFrom (importer : Module) (resolver : Resolver)
    (target : Location) (clause : Node) : Prop where
  | statement {parent : Option Node} {statement specifier : Node}
      {text : String}
      (occurs : importer.root.Occurs parent statement)
      (kind : statement.kind = "import_statement")
      (clause_eq : statement.namedChild? "import_clause" = some clause)
      (specifier_eq : importSpecifier? statement = some specifier)
      (literal : importer.literalValue? specifier = some text)
      (resolves : resolver.resolve importer.location text = some target)

/-- An import clause imports a name. -/
inductive ImportsName (importer : Module) (clause : Node) : String → Prop where
  | named {part specifier name : Node} (listed : part ∈ clause.namedChildren)
      (kind : part.kind = "named_imports")
      (specified : specifier ∈ part.namedChildren)
      (specifier_kind : specifier.kind = "import_specifier")
      (name_eq : specifier.childByField "name" = some name) :
      ImportsName importer clause (importer.specifierName name)
  | default {part : Node} (listed : part ∈ clause.namedChildren)
      (kind : part.kind = "identifier") :
      ImportsName importer clause "default"
  | accessed {part binding parent node : Node} {names : List String}
      {name : String} (listed : part ∈ clause.namedChildren)
      (kind : part.kind = "namespace_import")
      (binds : part.namedChild? "identifier" = some binding)
      (use : importer.AliasUse binding (some parent) node)
      (accesses : importer.Accesses parent node names)
      (member : name ∈ names) :
      ImportsName importer clause name

/-- An import clause imports a namespace with an occurrence of its alias that
cannot be attributed to names. -/
inductive ImportsAll (importer : Module) (clause : Node) : Prop where
  | unattributable {part binding node : Node} {parent : Option Node}
      (listed : part ∈ clause.namedChildren)
      (kind : part.kind = "namespace_import")
      (binds : part.namedChild? "identifier" = some binding)
      (use : importer.AliasUse binding parent node)
      (unknown : ¬ importer.IsAttributable parent node)

variable {importer : Module} {resolver : Resolver} {target : Location}
  {clause : Node}

/-- What the parts of an import clause use. -/
def clauseUsage (importer : Module) (clause : Node) : Usage :=
  .unionAll (clause.namedChildren.map importer.clausePartUsage)

theorem mem_clausePartUsage_named {part specifier name : Node}
    (kind : part.kind = "named_imports")
    (specified : specifier ∈ part.namedChildren)
    (specifier_kind : specifier.kind = "import_specifier")
    (name_eq : specifier.childByField "name" = some name) :
    importer.specifierName name ∈ importer.clausePartUsage part := by
  unfold clausePartUsage
  rw [if_neg (by simp [kind]), if_pos kind, Usage.mem_ofList,
    List.mem_filterMap]
  refine ⟨specifier, List.mem_filter.mpr ⟨specified, ?_⟩, ?_⟩
  · rw [specifier_kind]
    rfl
  · rw [name_eq]
    rfl

theorem clausePartUsage_namespace {part binding : Node}
    (kind : part.kind = "namespace_import")
    (binds : part.namedChild? "identifier" = some binding) :
    importer.clausePartUsage part = importer.namespaceUsage binding := by
  unfold clausePartUsage
  rw [if_neg (by simp [kind]), if_neg (by simp [kind]), if_pos kind, binds]

theorem mem_clauseUsage {name : String}
    (imports : importer.ImportsName clause name) :
    name ∈ importer.clauseUsage clause := by
  unfold clauseUsage
  rw [Usage.mem_unionAll]
  cases imports with
  | named listed kind specified specifier_kind name_eq =>
      exact ⟨_, List.mem_map.mpr ⟨_, listed, rfl⟩,
        mem_clausePartUsage_named kind specified specifier_kind name_eq⟩
  | default listed kind =>
      refine ⟨_, List.mem_map.mpr ⟨_, listed, rfl⟩, ?_⟩
      unfold clausePartUsage
      rw [if_pos kind, Usage.mem_ofList]
      exact List.mem_singleton_self _
  | accessed listed kind binds use accesses member =>
      refine ⟨_, List.mem_map.mpr ⟨_, listed, rfl⟩, ?_⟩
      rw [clausePartUsage_namespace kind binds]
      exact mem_namespaceUsage use accesses member

theorem clauseUsage_eq_all (imports : importer.ImportsAll clause) :
    importer.clauseUsage clause = .all := by
  cases imports with
  | unattributable listed kind binds use unknown =>
      have whole := namespaceUsage_eq_all use unknown
      unfold clauseUsage
      rw [Usage.unionAll_eq_all, List.mem_map]
      refine ⟨_, listed, ?_⟩
      rw [clausePartUsage_namespace kind binds, whole]

/-- An import statement makes a reference that uses at least what the parts of
its clause use. -/
theorem exists_reference_of_importsFrom
    (imports : importer.ImportsFrom resolver target clause)
    (different : target ≠ importer.location) :
    ∃ reference ∈ importer.references resolver, reference.target = target ∧
      reference.kind.forwards = false ∧
      importer.clauseUsage clause ≤ reference.uses := by
  cases imports with
  | @statement parent statement specifier text occurs kind clause_eq
      specifier_eq literal resolves =>
    have found : importer.target? resolver (importSpecifier? statement) =
        some target := by
      rw [specifier_eq]
      exact target?_eq_some literal resolves different
    have made (reference : Reference Location)
        (makes : importer.importReference? resolver statement =
          some reference) :
        reference ∈ importer.references resolver := by
      apply mem_references_of_occurs occurs
      unfold nodeReference?
      rw [if_pos kind, makes]
    have usage_eq : importer.importUsage statement =
        importer.clauseUsage clause := by
      unfold importUsage
      rw [clause_eq]
      rfl
    cases required : statement.namedChild? "import_require_clause" with
    | some other =>
        have makes : importer.importReference? resolver statement =
            some (importer.reference statement target .all .require []) := by
          unfold importReference?
          rw [found, required]
          rfl
        exact ⟨_, made _ makes, rfl, rfl, Usage.le_all _⟩
    | none =>
        have makes : importer.importReference? resolver statement =
            some (importer.reference statement target
              (importer.clauseUsage clause) .importing []) := by
          unfold importReference?
          rw [found, required, usage_eq]
          rfl
        exact ⟨_, made _ makes, rfl, rfl, Usage.le_refl _⟩

end Module

namespace Project

variable {project : Project} {store : Store} {settings : Settings}

/-- The usage of a loaded module holds what the import clauses of other loaded
modules use of it. -/
theorem clauseUsage_le_usage {policy : ReexportPolicy}
    {exporter importer : Module} {clause : Node}
    (exports : exporter ∈ project.loaded store)
    (imports : importer ∈ project.loaded store)
    (different : exporter ≠ importer)
    (importsFrom : importer.ImportsFrom project.resolver exporter.location
      clause) :
    importer.clauseUsage clause ≤
      (project.usageIndex store policy).usage exporter.location := by
  have apart : exporter.location ≠ importer.location :=
    location_ne_of_ne exports imports different
  obtain ⟨reference, made, target, own, uses⟩ :=
    Module.exists_reference_of_importsFrom importsFrom apart
  exact Usage.le_trans uses
    (uses_le_usage_of_mem exports imports made target own)

/-- What a loaded module imports from another is never reported as unused
there. -/
theorem import_keeps_exports {findings : List Diagnostic}
    (analyzed : project.analyze store settings = .ok findings) :
    ∃ about, project.Reports store settings findings about ∧
      ∀ exporter ∈ project.loaded store, ∀ importer ∈ project.loaded store,
        exporter ≠ importer → ∀ clause,
          importer.ImportsFrom project.resolver exporter.location clause →
            (∀ name, importer.ImportsName clause name →
              ∀ finding ∈ about exporter.location,
                ¬ finding.WarnsUnused name) ∧
            (importer.ImportsAll clause →
              ∀ name, ∀ finding ∈ about exporter.location,
                ¬ finding.WarnsUnused name) := by
  obtain ⟨about, reports⟩ := exists_reports analyzed
  refine ⟨about, reports, ?_⟩
  intro exporter exports importer imports different clause importsFrom
  have used : importer.clauseUsage clause ≤
      (project.usageIndex store settings.reexportPolicy).usage
        exporter.location :=
    clauseUsage_le_usage exports imports different importsFrom
  rw [Usage.le_iff] at used
  have judged := judged_of_reports reports exports
  constructor
  · intro name importsName
    exact Module.not_warnsUnused_of_mem judged
      (used.2 name (Module.mem_clauseUsage importsName))
  · intro importsAll name
    have whole := used.1 (Module.clauseUsage_eq_all importsAll)
    rw [whole] at judged
    exact Module.not_warnsUnused_of_mem judged (Usage.mem_all name)

end Project

theorem namedClause_importsFrom :
    importing.ImportsFrom twoModules.resolver exporting.location
      namedClause := by
  have occurs : importing.root.Occurs (some importing.root)
      (.named "import_statement" 0 21 none [
        namedClause, .named "string" 16 21 "source" []]) :=
    .child .root (List.mem_cons_self ..)
  have literal : importing.literalValue? (.named "string" 16 21 "source" []) =
      some "./a" := by
    decide
  exact .statement occurs rfl rfl rfl literal (by decide)

theorem namespaceClause_importsFrom :
    importing.ImportsFrom twoModules.resolver exporting.location
      namespaceClause := by
  have occurs : importing.root.Occurs (some importing.root)
      (.named "import_statement" 22 46 none [
        namespaceClause, .named "string" 41 46 "source" []]) :=
    .child .root (List.mem_cons_of_mem _ (List.mem_cons_self ..))
  have literal : importing.literalValue? (.named "string" 41 46 "source" []) =
      some "./a" := by
    decide
  exact .statement occurs rfl rfl rfl literal (by decide)

theorem namedClause_importsName : importing.ImportsName namedClause "a" := by
  have name : importing.specifierName (.named "identifier" 8 9 "name" []) =
      "a" := by
    decide
  rw [← name]
  exact .named (List.mem_cons_self ..) rfl (List.mem_cons_self ..) rfl rfl

theorem namespaceClause_importsName :
    importing.ImportsName namespaceClause "b" := by
  have statement : importing.root.Occurs (some importing.root)
      (.named "expression_statement" 47 50 none [namespaceAccess]) :=
    .child .root (List.mem_cons_of_mem _ (List.mem_cons_of_mem _
      (List.mem_cons_self ..)))
  have object : importing.root.Occurs (some namespaceAccess)
      (.named "identifier" 47 48 "object" []) :=
    .child (.child statement (List.mem_singleton_self _))
      (List.mem_cons_self ..)
  have use : importing.AliasUse (.named "identifier" 34 35 none [])
      (some namespaceAccess) (.named "identifier" 47 48 "object" []) :=
    ⟨object, .inl rfl, by decide, by decide⟩
  have accesses : importing.Accesses namespaceAccess
      (.named "identifier" 47 48 "object" []) ["b"] := by
    have name : importing.text (.named "property_identifier" 49 50 "property"
        []) = "b" := by
      decide
    rw [← name]
    exact .member rfl rfl rfl rfl rfl
  exact .accessed (List.mem_cons_self ..) rfl rfl use accesses
    (List.mem_singleton_self _)

theorem imports_of_twoModules_kept :
    ∃ about, twoModules.Reports twoFiles (.plain .direct)
        [⟨.warn, "\x60c\x60 (L1) seems unused, consider deleting", "a.ts",
          some 1⟩] about ∧
      (∀ finding ∈ about exporting.location, ¬ finding.WarnsUnused "a") ∧
      ∀ finding ∈ about exporting.location, ¬ finding.WarnsUnused "b" := by
  have analyzed : twoModules.analyze twoFiles (.plain .direct) =
      .ok (twoModules.directFindings twoFiles (.plain .direct)) :=
    Project.analyze_direct rfl rfl rfl (by decide) not_meetsNull_twoModules
  rw [directFindings_twoModules] at analyzed
  obtain ⟨about, reports, kept⟩ := Project.import_keeps_exports analyzed
  have exports : exporting ∈ twoModules.loaded twoFiles := by
    rw [loaded_twoModules]
    exact List.mem_cons_self ..
  have imports : importing ∈ twoModules.loaded twoFiles := by
    rw [loaded_twoModules]
    exact List.mem_cons_of_mem _ (List.mem_cons_self ..)
  have different : exporting ≠ importing := by
    intro same
    have places := congrArg Module.location same
    revert places
    decide
  refine ⟨about, reports, ?_, ?_⟩
  · exact (kept _ exports _ imports different _ namedClause_importsFrom).1 _
      namedClause_importsName
  · exact (kept _ exports _ imports different _ namespaceClause_importsFrom).1
      _ namespaceClause_importsName

end ExportAudit
