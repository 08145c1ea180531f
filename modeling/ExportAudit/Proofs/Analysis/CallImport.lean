import ExportAudit.Proofs.Analysis.StaticImport

/-!
# Calls that import keep exports

A call of `import` or `require` with a literal first argument imports a module
as a whole, so nothing in that module is reported as unused.  The specifier of a
call is looked for at the first place among its arguments.  A comment at that
place hides the specifier: the call then refers to nothing.
-/

namespace ExportAudit

/-! ## Arguments and comments -/

namespace Node

/-- The first argument of a call, comments apart. -/
def firstArgument? (call : Node) : Option Node := do
  let arguments ← call.childByField "arguments"
  arguments.namedChildren.find? fun argument => !argument.isComment

/-- A comment stands before every argument of a call. -/
def StartsWithComment (call : Node) : Prop :=
  ∃ arguments first, call.childByField "arguments" = some arguments ∧
    arguments.namedChildren.head? = some first ∧ first.isComment = true

end Node

namespace Module

variable {module caller : Module} {resolver : Resolver} {target : Location}
  {call : Node}

/-- Without a comment in front the specifier of a call is its first argument. -/
theorem callSpecifier?_eq_firstArgument? (plain : ¬ call.StartsWithComment) :
    callSpecifier? call = call.firstArgument? := by
  simp only [callSpecifier?, Node.firstArgument?, Option.bind_eq_bind]
  cases passed : call.childByField "arguments" with
  | none => rfl
  | some arguments =>
      simp only [Option.bind_some]
      cases listed : arguments.namedChildren with
      | nil => rfl
      | cons first others =>
          have argument : first.isComment = false := by
            apply Bool.eq_false_iff.mpr
            intro comment
            apply plain
            exact ⟨arguments, first, passed, by rw [listed]; rfl, comment⟩
          simp [argument]

/-- A comment in front hides the specifier of a call. -/
theorem target?_callSpecifier?_of_comment (commented : call.StartsWithComment) :
    module.target? resolver (callSpecifier? call) = none := by
  obtain ⟨arguments, first, passed, leads, comment⟩ := commented
  have specifier : callSpecifier? call = some first := by
    simp only [callSpecifier?, passed, Option.bind_eq_bind, Option.bind_some]
    exact leads
  have nothing : module.literalValue? first = none := by
    cases Node.isComment_iff.mp comment with
    | inl block => simp [literalValue?, block]
    | inr html => simp [literalValue?, html]
  simp [target?, specifier, nothing]

theorem nodeReference?_of_call (kind : call.kind = "call_expression") :
    module.nodeReference? resolver call =
      module.callReference? resolver call := by
  simp [nodeReference?, kind]

/-- A call with a comment in front refers to nothing. -/
theorem nodeReference?_eq_none_of_comment
    (kind : call.kind = "call_expression")
    (commented : call.StartsWithComment) :
    module.nodeReference? resolver call = none := by
  rw [nodeReference?_of_call kind]
  simp [callReference?, target?_callSpecifier?_of_comment commented]

/-! ## Calls that import -/

/-- A call of `import` or `require`, anywhere in a module, whose first argument
is a literal names the module at a location. -/
inductive CallsFor (caller : Module) (resolver : Resolver) (target : Location)
    (call : Node) : Prop where
  | literal {parent : Option Node} {callee argument : Node} {text : String}
      (occurs : caller.root.Occurs parent call)
      (kind : call.kind = "call_expression")
      (callee_eq : call.childByField "function" = some callee)
      (imports : callee.kind = "import" ∨
        callee.kind = "identifier" ∧ caller.text callee = "require")
      (argument_eq : call.firstArgument? = some argument)
      (literal : caller.literalValue? argument = some text)
      (resolves : resolver.resolve caller.location text = some target)

/-- A call that imports makes a reference of one of two kinds. -/
theorem exists_callKind? {callee : Node}
    (callee_eq : call.childByField "function" = some callee)
    (imports : callee.kind = "import" ∨
      callee.kind = "identifier" ∧ caller.text callee = "require") :
    ∃ kind, caller.callKind? call = some kind ∧ kind.forwards = false := by
  cases imports with
  | inl keyword =>
      refine ⟨.dynamicImport, ?_, rfl⟩
      simp [callKind?, callee_eq, keyword]
  | inr required =>
      refine ⟨.require, ?_, rfl⟩
      simp [callKind?, callee_eq, required.1, required.2]

/-- A call that imports, without a comment in front, makes a reference that uses
everything. -/
theorem exists_reference_of_callsFor
    (calls : caller.CallsFor resolver target call)
    (plain : ¬ call.StartsWithComment)
    (different : target ≠ caller.location) :
    ∃ reference ∈ caller.references resolver, reference.target = target ∧
      reference.kind.forwards = false ∧ reference.uses = .all := by
  cases calls with
  | literal occurs kind callee_eq imports argument_eq literal resolves =>
      obtain ⟨referenceKind, known, own⟩ := exists_callKind? callee_eq imports
      have found : caller.target? resolver (callSpecifier? call) =
          some target := by
        rw [callSpecifier?_eq_firstArgument? plain, argument_eq]
        exact target?_eq_some literal resolves different
      have makes : caller.nodeReference? resolver call =
          some (caller.reference call target .all referenceKind []) := by
        rw [nodeReference?_of_call kind]
        simp [callReference?, known, found]
      exact ⟨_, mem_references_of_occurs occurs makes, rfl, own, rfl⟩

end Module

namespace Project

variable {project : Project} {store : Store} {settings : Settings}

/-- Everything that a module exports is used if another loaded module has a call
that imports it. -/
theorem usage_eq_all_of_callsFor {policy : ReexportPolicy}
    {exporter caller : Module} {call : Node}
    (exports : exporter ∈ project.loaded store)
    (loaded : caller ∈ project.loaded store) (different : exporter ≠ caller)
    (calls : caller.CallsFor project.resolver exporter.location call)
    (plain : ¬ call.StartsWithComment) :
    (project.usageIndex store policy).usage exporter.location = .all := by
  have apart : exporter.location ≠ caller.location :=
    location_ne_of_ne exports loaded different
  obtain ⟨reference, made, target, own, everything⟩ :=
    Module.exists_reference_of_callsFor calls plain apart
  have least : reference.uses ≤
      (project.usageIndex store policy).usage exporter.location :=
    uses_le_usage_of_mem exports loaded made target own
  exact (Usage.le_iff.mp least).1 everything

/-- A call that imports a module keeps all its exports from being reported,
unless a comment in front hides what it imports. -/
theorem call_keeps_exports {findings : List Diagnostic}
    (analyzed : project.analyze store settings = .ok findings) :
    ∃ about, project.Reports store settings findings about ∧
      ∀ exporter ∈ project.loaded store, ∀ caller ∈ project.loaded store,
        exporter ≠ caller → ∀ call,
          caller.CallsFor project.resolver exporter.location call →
            (¬ call.StartsWithComment →
              ∀ name, ∀ finding ∈ about exporter.location,
                ¬ finding.WarnsUnused name) ∧
            (call.StartsWithComment →
              caller.nodeReference? project.resolver call = none) := by
  obtain ⟨about, reports⟩ := exists_reports analyzed
  refine ⟨about, reports, ?_⟩
  intro exporter exports caller loaded different call calls
  constructor
  · intro plain name
    have judged := judged_of_reports reports exports
    rw [usage_eq_all_of_callsFor exports loaded different calls plain] at judged
    exact Module.not_warnsUnused_of_mem judged (Usage.mem_all name)
  · intro commented
    cases calls with
    | literal _ kind =>
        exact Module.nodeReference?_eq_none_of_comment kind commented

end Project

/-! ## Two calls -/

/-- A call that imports the module with three exports. -/
def plainCall : Node :=
  .named "call_expression" 0 13 none [
    .named "import" 0 6 "function" [],
    .named "arguments" 6 13 "arguments" [.named "string" 7 12 none []]]

/-- The same call with a comment in front of the specifier. -/
def commentedCall : Node :=
  .named "call_expression" 14 31 none [
    .named "import" 14 20 "function" [],
    .named "arguments" 20 31 "arguments" [
      .named "comment" 21 25 none [], .named "string" 25 30 none []]]

/-- A module with both calls. -/
def calling : Module :=
  ⟨⟨["b.ts"]⟩, Text.Utf8.encode "import('./a')\nimport(/**/'./a')",
    .typescript,
    .named "program" 0 31 none [
      .named "expression_statement" 0 13 none [plainCall],
      .named "expression_statement" 14 31 none [commentedCall]]⟩

/-- The file of the module with both calls. -/
def callingContent : Content := .ofTree calling.source calling.root

theorem load_calling :
    Module.load (filesBeside callingContent) importing.location =
      .ok calling := by
  have sound : Module.firstFault? calling.root = none := by
    rw [Module.firstFault?_eq]
    decide
  exact Module.load_eq_ok rfl rfl sound

theorem not_meetsNull_calling :
    ¬ twoModules.MeetsNull (filesBeside callingContent) := by
  have once : calling.specifiers = ["./a"] := by
    rw [Module.specifiers, Module.nodes_eq]
    decide
  apply not_meetsNull_beside load_calling
  rw [once]
  decide

theorem plainCall_callsFor :
    calling.CallsFor twoModules.resolver exporting.location plainCall := by
  have occurs : calling.root.Occurs
      (some (.named "expression_statement" 0 13 none [plainCall])) plainCall :=
    .child (.child .root (List.mem_cons_self ..)) (List.mem_singleton_self _)
  have literal : calling.literalValue? (.named "string" 7 12 none []) =
      some "./a" := by
    decide
  exact .literal occurs rfl rfl (.inl rfl) rfl literal (by decide)

theorem commentedCall_callsFor :
    calling.CallsFor twoModules.resolver exporting.location commentedCall := by
  have occurs : calling.root.Occurs
      (some (.named "expression_statement" 14 31 none [commentedCall]))
      commentedCall :=
    .child (.child .root (List.mem_cons_of_mem _ (List.mem_cons_self ..)))
      (List.mem_singleton_self _)
  have literal : calling.literalValue? (.named "string" 25 30 none []) =
      some "./a" := by
    decide
  exact .literal occurs rfl rfl (.inl rfl) rfl literal (by decide)

theorem calls_of_twoModules_kept :
    (∃ findings about, twoModules.Reports (filesBeside callingContent)
        (.plain .transitive) findings about ∧
      ∀ name, ∀ finding ∈ about exporting.location,
        ¬ finding.WarnsUnused name) ∧
    calling.nodeReference? twoModules.resolver commentedCall = none := by
  obtain ⟨findings, analyzed⟩ : ∃ findings,
      twoModules.analyze (filesBeside callingContent) (.plain .transitive) =
        .ok findings :=
    Project.exists_analyze_plain not_meetsNull_calling
  obtain ⟨about, reports, kept⟩ := Project.call_keeps_exports analyzed
  have exports : exporting ∈ twoModules.loaded (filesBeside callingContent) := by
    rw [loaded_beside load_calling]
    exact List.mem_cons_self ..
  have calls : calling ∈ twoModules.loaded (filesBeside callingContent) := by
    rw [loaded_beside load_calling]
    exact List.mem_cons_of_mem _ (List.mem_cons_self ..)
  have different : exporting ≠ calling := by
    intro same
    have places := congrArg Module.location same
    revert places
    decide
  have plain : ¬ plainCall.StartsWithComment := by
    intro commented
    obtain ⟨arguments, first, passed, leads, comment⟩ := commented
    cases passed
    cases leads
    revert comment
    decide
  have commented : commentedCall.StartsWithComment :=
    ⟨_, _, rfl, rfl, by decide⟩
  refine ⟨⟨findings, about, reports, ?_⟩, ?_⟩
  · exact (kept _ exports _ calls different _ plainCall_callsFor).1 plain
  · exact (kept _ exports _ calls different _ commentedCall_callsFor).2
      commented

end ExportAudit
