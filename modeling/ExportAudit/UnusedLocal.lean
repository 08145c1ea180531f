import ExportAudit.Diagnostic
import ExportAudit.Edit
import ExportAudit.Module

/-!
# Unused local names

A local name is unused if its text occurs as an identifier no more than once in
its module, that is, only where it is bound.  Unused names are removed from
imports, declarations and variable declarations.  Exported declarations,
ambient declarations, and the top-level declarations of a script stay.
-/

namespace ExportAudit.Module

/-- Whether a local name is unused in a module with the given identifiers.  The
name that markup elements refer to without writing it counts as used where there
are such elements. -/
def isUnused (identifiers : List String) (hasMarkup : Bool) (name : String) :
    Bool :=
  if hasMarkup && name = "React" then false else identifiers.count name ≤ 1

/-- The kinds of declarations that are removed as a whole. -/
def declarationKinds : List String :=
  ["function_declaration", "generator_function_declaration",
    "class_declaration", "abstract_class_declaration",
    "interface_declaration", "type_alias_declaration", "enum_declaration"]

/-- The kinds of variable declarations. -/
def variableKinds : List String :=
  ["lexical_declaration", "variable_declaration"]

/-- The kinds of statements whose header may hold a variable declaration. -/
def loopKinds : List String := ["for_statement", "for_in_statement"]

/-- Whether a node encloses nothing that may be removed. -/
def isAmbient (node : Node) : Bool := node.kind = "ambient_declaration"

/-- Whether a visited node may bind a name that can be removed. -/
def isCandidate (script : Bool) (visit : Visit) : Bool :=
  let parentKind := visit.parent.map (·.kind)
  let kind := visit.node.kind
  parentKind ≠ some "export_statement" &&
    !(script && parentKind = some "program") &&
    (kind = "import_statement" || kind ∈ declarationKinds ||
      (kind ∈ variableKinds && !parentKind.any (· ∈ loopKinds)))

/-- The statements of a tree that may bind a name that can be removed. -/
def candidatesIn (root : Node) (script : Bool) : List Node :=
  ((traverse isAmbient [⟨none, root⟩]).filter (isCandidate script)).map (·.node)

/-- The statements of a module that may bind a name that can be removed. -/
def candidates (module : Module) : List Node :=
  candidatesIn module.root module.isScript

/-- The end of a range, moved past a line break that follows it. -/
def pastLineBreak (source : List UInt8) (stop : Nat) : Nat :=
  match source.drop stop with
  | 0x0d :: 0x0a :: _ => stop + 2
  | 0x0a :: _ => stop + 1
  | _ => stop

/-- Remove a statement and the line break after it. -/
def removal (module : Module) (node : Node) : Edit :=
  ⟨node.start, pastLineBreak module.source node.stop, ""⟩

/-- What is left of an import clause, and whether anything is gone. -/
structure ImportRemainder where
  removed : Bool
  parts : List String
  specifiers : List String

namespace ImportRemainder

/-- A binding is removed. -/
def gone : ImportRemainder := ⟨true, [], []⟩

/-- A part is kept. -/
def part (text : String) : ImportRemainder := ⟨false, [text], []⟩

/-- A specifier is kept. -/
def specifier (text : String) : ImportRemainder := ⟨false, [], [text]⟩

/-- What is left of several pieces. -/
def combine (pieces : List ImportRemainder) : ImportRemainder where
  removed := pieces.any (·.removed)
  parts := pieces.flatMap (·.parts)
  specifiers := pieces.flatMap (·.specifiers)

/-- The text of what is left: the kept parts, then the kept specifiers in
braces. -/
def text (remainder : ImportRemainder) : String :=
  let braced :=
    if remainder.specifiers.isEmpty then []
    else ["\x7b " ++ ", ".intercalate remainder.specifiers ++ " \x7d"]
  ", ".intercalate (remainder.parts ++ braced)

/-- Whether nothing is left. -/
def isEmpty (remainder : ImportRemainder) : Bool :=
  remainder.parts.isEmpty && remainder.specifiers.isEmpty

end ImportRemainder

/-- What is left of a specifier. -/
def specifierRemainder (module : Module) (unused : String → Bool)
    (node : Node) : ImportRemainder :=
  let bound :=
    (node.childByField "alias").orElse fun _ => node.childByField "name"
  if bound.any fun name => unused (module.text name) then .gone
  else .specifier (module.text node)

/-- What is left of a part of an import clause, if it is known what the part
binds. -/
def importPartRemainder? (module : Module) (unused : String → Bool)
    (part : Node) : Option ImportRemainder :=
  if part.kind = "identifier" then
    some (if unused (module.text part) then .gone
      else .part (module.text part))
  else if part.kind = "namespace_import" then
    some (if (part.namedChild? "identifier").any fun binding =>
        unused (module.text binding)
      then .gone else .part (module.text part))
  else if part.kind = "named_imports" then
    some (.combine
      ((part.namedChildren.filter (·.kind = "import_specifier")).map
        (module.specifierRemainder unused)))
  else none

/-- The edit that removes the unused names of an import statement. -/
def importEdit? (module : Module) (unused : String → Bool)
    (statement : Node) : Option Edit := do
  let clause ← statement.namedChild? "import_clause"
  let pieces ← clause.namedChildren.mapM (module.importPartRemainder? unused)
  let remainder := ImportRemainder.combine pieces
  if !remainder.removed then none
  else if remainder.isEmpty then some (module.removal statement)
  else some ⟨clause.start, clause.stop, remainder.text⟩

/-- Whether a declarator binds one unused name. -/
def isUnusedDeclarator (module : Module) (unused : String → Bool)
    (declarator : Node) : Bool :=
  (declarator.childByField "name").any fun name =>
    name.kind = "identifier" && unused (module.text name)

/-- The edit that removes the unused names of a variable declaration. -/
def variableEdit? (module : Module) (unused : String → Bool)
    (statement : Node) : Option Edit :=
  let declarators :=
    statement.namedChildren.filter (·.kind = "variable_declarator")
  let kept := declarators.filter fun declarator =>
    !module.isUnusedDeclarator unused declarator
  match declarators.head?, declarators.getLast? with
  | some first, some last =>
      if kept.length = declarators.length then none
      else if kept.isEmpty then some (module.removal statement)
      else some ⟨first.start, last.stop,
        ", ".intercalate (kept.map module.text)⟩
  | _, _ => none

/-- The edit that removes a declaration with an unused name. -/
def declarationEdit? (module : Module) (unused : String → Bool)
    (statement : Node) : Option Edit := do
  let name ← statement.childByField "name"
  if unused (module.text name) then some (module.removal statement) else none

/-- The edit that removes the unused names of a statement. -/
def candidateEdit? (module : Module) (unused : String → Bool)
    (statement : Node) : Option Edit :=
  if statement.kind = "import_statement" then module.importEdit? unused statement
  else if statement.kind ∈ variableKinds then
    module.variableEdit? unused statement
  else module.declarationEdit? unused statement

/-- The edits that remove the unused names of a module; an edit inside another
is dropped. -/
def unusedLocalEdits (module : Module) : List Edit :=
  let identifiers := module.identifiers
  let hasMarkup := module.hasMarkup
  Edit.keep (module.candidates.filterMap
    (module.candidateEdit? (isUnused identifiers hasMarkup)))

/-- The text of the module without its unused names.  There is none if an edit
splits a character. -/
def withoutUnusedLocals? (module : Module) : Option String :=
  Text.Utf8.decode? (Edit.applyAll module.unusedLocalEdits module.source)

/-- The text of the module without its unused names, with the number of edits
that lead to it. -/
def removeUnusedLocals? (module : Module) : Option (String × Nat) :=
  module.withoutUnusedLocals?.map fun text =>
    (text, module.unusedLocalEdits.length)

/-- What is said about a module with unused names. -/
def unusedLocalsMessage : String :=
  "module contains unused symbols, please remove them"

/-- Whether removing the unused names of a module changes its text.  There is
no answer if an edit splits a character. -/
def hasUnusedLocals? (module : Module) : Option Bool :=
  if module.isDeclarationFile then some false
  else
    module.withoutUnusedLocals?.map fun stripped =>
      some stripped ≠ Text.Utf8.decode? module.source

/-- The finding on unused names of a module: none for a module that only
declares what is defined elsewhere. -/
def unusedLocalsFinding? (module : Module) (file : String) :
    Option (Option Diagnostic) :=
  module.hasUnusedLocals?.map fun found =>
    if found then some ⟨.error, unusedLocalsMessage, some file, none⟩ else none

end ExportAudit.Module
