import ExportAudit.Reference
import ExportAudit.Reference.Namespace
import ExportAudit.Resolver

/-!
# The references of a module

The references of a module are read off its imports, its re-exports and its
calls of `import` and `require`, wherever they stand in the tree.  A construct
whose specifier does not resolve to another module of the project gives no
reference.
-/

namespace ExportAudit.Module

/-- The module that a specifier names, if it is another module of the
project. -/
def target? (module : Module) (resolver : Resolver) (specifier : Option Node) :
    Option Location := do
  let node ← specifier
  let text ← module.literalValue? node
  let target ← resolver.resolve module.location text
  if target = module.location then none else some target

/-- A reference of the module, at the line of the construct. -/
def reference (module : Module) (node : Node) (target : Location)
    (uses : Usage) (kind : ReferenceKind) (forwards : List Forward) :
    Reference Location where
  source := module.location
  target := target
  uses := uses
  line := module.line node
  kind := kind
  forwards := forwards

/-- What one part of an import clause uses. -/
def clausePartUsage (module : Module) (part : Node) : Usage :=
  if part.kind = "identifier" then .ofList ["default"]
  else if part.kind = "named_imports" then
    .ofList ((part.namedChildren.filter (·.kind = "import_specifier")).filterMap
      fun specifier =>
        (specifier.childByField "name").map module.specifierName)
  else if part.kind = "namespace_import" then
    match part.namedChild? "identifier" with
    | some binding => module.namespaceUsage binding
    | none => .all
  else if part.kind = "comment" then .none
  else .all

/-- What an import statement uses: nothing if it binds nothing, and otherwise
what the parts of its clause use. -/
def importUsage (module : Module) (statement : Node) : Usage :=
  match statement.namedChild? "import_clause" with
  | none => .none
  | some clause => .unionAll (clause.namedChildren.map module.clausePartUsage)

/-- The specifier of an import statement. -/
def importSpecifier? (statement : Node) : Option Node :=
  match statement.namedChild? "import_require_clause" with
  | some clause =>
      (clause.childByField "source").orElse fun _ => clause.namedChild? "string"
  | none => statement.childByField "source"

/-- The reference of an import statement. -/
def importReference? (module : Module) (resolver : Resolver) (statement : Node) :
    Option (Reference Location) := do
  let target ← module.target? resolver (importSpecifier? statement)
  match statement.namedChild? "import_require_clause" with
  | some _ => return module.reference statement target .all .require []
  | none =>
      return module.reference statement target (module.importUsage statement)
        .importing []

/-- The names that an export clause passes on. -/
def clauseForwards (module : Module) (clause : Node) : List Forward :=
  (clause.namedChildren.filter (·.kind = "export_specifier")).filterMap
    fun specifier =>
      (specifier.childByField "name").map fun nameNode =>
        ⟨module.specifierName nameNode,
          module.specifierName ((specifier.childByField "alias").getD nameNode)⟩

/-- The reference of a re-export.  Its first clause decides what it passes on;
without a clause it passes on everything but the default export. -/
def forwardReference? (module : Module) (resolver : Resolver)
    (statement : Node) : Option (Reference Location) := do
  let target ← module.target? resolver (statement.childByField "source")
  let clause := statement.namedChildren.find? fun child =>
    child.kind = "export_clause" || child.kind = "namespace_export"
  match clause with
  | none => return module.reference statement target .all .starForward []
  | some clause =>
      if clause.kind = "export_clause" then
        let forwards := module.clauseForwards clause
        return module.reference statement target
          (.ofList (forwards.map (·.imported))) .forward forwards
      else
        let exported :=
          (clause.namedChildren.head?.map module.specifierName).getD "*"
        return module.reference statement target .all .namespaceForward
          [⟨"*", exported⟩]

/-- The kind of the reference that a call makes, if it calls `import` or
`require`. -/
def callKind? (module : Module) (call : Node) : Option ReferenceKind := do
  let callee ← call.childByField "function"
  if callee.kind = "import" then some .dynamicImport
  else if callee.kind = "identifier" && module.text callee = "require" then
    some .require
  else none

/-- The specifier of a call: its first argument. -/
def callSpecifier? (call : Node) : Option Node := do
  let arguments ← call.childByField "arguments"
  arguments.namedChildren.head?

/-- The reference of a call of `import` or `require`. -/
def callReference? (module : Module) (resolver : Resolver) (call : Node) :
    Option (Reference Location) := do
  let kind ← module.callKind? call
  let target ← module.target? resolver (callSpecifier? call)
  return module.reference call target .all kind []

/-- The reference that a node makes. -/
def nodeReference? (module : Module) (resolver : Resolver) (node : Node) :
    Option (Reference Location) :=
  if node.kind = "import_statement" then module.importReference? resolver node
  else if node.kind = "export_statement" &&
      (node.childByField "source").isSome then
    module.forwardReference? resolver node
  else if node.kind = "call_expression" then module.callReference? resolver node
  else none

/-- The references of a module, in the order of its tree. -/
def references (module : Module) (resolver : Resolver) :
    List (Reference Location) :=
  module.nodes.filterMap (module.nodeReference? resolver)

/-- The specifier of the reference that a node makes. -/
def nodeSpecifier? (module : Module) (node : Node) : Option Node :=
  if node.kind = "import_statement" then importSpecifier? node
  else if node.kind = "export_statement" then node.childByField "source"
  else if node.kind = "call_expression" && (module.callKind? node).isSome then
    callSpecifier? node
  else none

/-- The texts of the specifiers in a module, in the order of its tree. -/
def specifiers (module : Module) : List String :=
  module.nodes.filterMap fun node =>
    (module.nodeSpecifier? node).bind module.literalValue?

/-- The references of a module in a file system, where every specifier has to
be located. -/
def locateReferences (module : Module) (resolver : Resolver) :
    Except Failure (List (Reference Location)) := do
  let _ ← module.specifiers.mapM (resolver.locate module.location)
  return module.references resolver

end ExportAudit.Module
