import ExportAudit.Export.Binding

/-!
# Exports of a module

The export symbols of a module are gathered from the contributions of its
top-level export statements.  A name may be contributed several times: by
overloads, by merged declarations, or by a specifier together with the local
declarations behind it.  Its symbol stands on the least of the contributed
lines and has the kind of the first contribution.
-/

namespace ExportAudit

/-- A name that a module exports.  The line is absent if no declaration is
known. -/
structure Export where
  name : String
  line : Option Int
  kind : ExportKind
  deriving DecidableEq

namespace Export

/-- Whether a symbol is listed no later than another: by line, symbols without
a line last, and then by name. -/
def listed (left right : Export) : Bool :=
  match left.line, right.line with
  | some leftLine, some rightLine =>
      leftLine < rightLine || (leftLine = rightLine && left.name ≤ right.name)
  | some _, none => true
  | none, some _ => false
  | none, none => left.name ≤ right.name

/-- Symbols in the order in which they are listed. -/
def sort (symbols : List Export) : List Export := symbols.mergeSort listed

end Export

/-- One contribution to an export symbol. -/
structure Contribution where
  name : String
  line : Nat
  kind : ExportKind

namespace Module

/-- The top-level declarations of a name that are not themselves exported. -/
def localDeclarations (module : Module) : List Declared :=
  (module.statements.filter (·.kind ≠ "export_statement")).flatMap
    module.declaredNames

/-- What a specifier of an export clause contributes.  The local declarations
of the specified name contribute first. -/
def specifierContributions (module : Module) (locals : List Declared)
    (specifier : Node) : List Contribution :=
  match specifier.childByField "name" with
  | none => []
  | some nameNode =>
      let aliasNode := (specifier.childByField "alias").getD nameNode
      let exported := module.specifierName aliasNode
      let specified := module.specifierName nameNode
      let behind := locals.filter fun declared => declared.name = specified
      behind.map (fun declared =>
          ⟨exported, module.line declared.node, declared.kind⟩) ++
        [⟨exported, module.line specifier, .specifier⟩]

/-- What a part of an export statement contributes. -/
def clauseContributions (module : Module) (locals : List Declared)
    (clause : Node) : List Contribution :=
  if clause.kind = "export_clause" then
    (clause.namedChildren.filter (·.kind = "export_specifier")).flatMap
      (module.specifierContributions locals)
  else if clause.kind = "namespace_export" then
    clause.namedChildren.map fun child =>
      ⟨module.specifierName child, module.line clause, .namespaceReexport⟩
  else []

/-- Whether an export statement exports one value as a whole. -/
def exportsDefault (statement : Node) : Bool :=
  statement.children.any fun child =>
    !child.isNamed && (child.kind = "default" || child.kind = "=")

/-- What an export statement contributes.  Local declarations stand behind its
specifiers only if it names no other module. -/
def statementContributions (module : Module) (locals : List Declared)
    (statement : Node) : List Contribution :=
  if exportsDefault statement then
    [⟨"default", module.line statement, .default⟩]
  else
    match statement.childByField "declaration" with
    | some declaration =>
        (module.declaredNames declaration).map fun declared =>
          ⟨declared.name, module.line declared.node, declared.kind⟩
    | none =>
        let behind :=
          if (statement.childByField "source").isSome then [] else locals
        statement.namedChildren.flatMap (module.clauseContributions behind)

/-- The contributions of all export statements, in order. -/
def contributions (module : Module) : List Contribution :=
  (module.statements.filter (·.kind = "export_statement")).flatMap
    (module.statementContributions module.localDeclarations)

/-- The symbol of a name: the least line and the first kind of its
contributions. -/
def symbolOf (name : String) (entries : List Contribution) : Export where
  name := name
  line := (entries.map (·.line)).min?.map Int.ofNat
  kind := (entries.head?.map (·.kind)).getD .default

/-- The export symbols of a module, in order of line and name. -/
def exports (module : Module) : List Export :=
  let entries := module.contributions
  Export.sort ((entries.map (·.name)).eraseDups.map fun name =>
    symbolOf name (entries.filter (·.name = name)))

end Module

end ExportAudit
