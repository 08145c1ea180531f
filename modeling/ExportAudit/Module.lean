import ExportAudit.Label
import ExportAudit.Path
import ExportAudit.Syntax.Traversal
import ExportAudit.Text.Letter
import ExportAudit.Text.Utf8

/-!
# Modules

A module is a source file that has been read: its location, its bytes, its
language and its syntax tree.  The texts of nodes are the bytes they cover.
-/

namespace ExportAudit

/-- The grammar by which a module is read. -/
inductive Language where
  | javascript
  | typescript
  | tsx
  deriving DecidableEq

namespace Language

/-- The name of a language. -/
def label : Language → String
  | .javascript => "javascript"
  | .typescript => "typescript"
  | .tsx => "tsx"

/-- The language with a given name. -/
def ofLabel? (text : String) : Option Language :=
  [javascript, typescript, tsx].find? (·.label == text)

/-- The language with a given name, or what is wrong with the name. -/
def ofLabel (text : String) : Except UnknownLabel Language :=
  match ofLabel? text with
  | some language => .ok language
  | none => .error (.language text)

/-- The language of files with a given suffix. -/
def ofSuffix? (suffix : String) : Option Language :=
  match Text.lower suffix with
  | ".js" | ".jsx" | ".mjs" | ".cjs" => some .javascript
  | ".ts" | ".mts" | ".cts" => some .typescript
  | ".tsx" => some .tsx
  | _ => none

end Language

/-- A source file that has been read. -/
structure Module where
  location : Location
  source : List UInt8
  language : Language
  root : Node

namespace Module

/-- The text that a node covers. -/
def text (module : Module) (node : Node) : String :=
  Text.Utf8.decodeLossy
    ((module.source.drop node.start).take (node.stop - node.start))

/-- The line of a byte offset, counted from 1. -/
def lineAt (source : List UInt8) (offset : Nat) : Nat :=
  (source.take offset).count 0x0a + 1

/-- The line on which a node starts. -/
def line (module : Module) (node : Node) : Nat :=
  lineAt module.source node.start

/-- The top-level statements. -/
def statements (module : Module) : List Node := module.root.namedChildren

/-- All nodes of the module's tree. -/
def nodes (module : Module) : List Node := module.root.walk

/-- Whether the module only declares what is defined elsewhere. -/
def isDeclarationFile (module : Module) : Bool :=
  [".d.ts", ".d.mts", ".d.cts"].any fun ending =>
    ending.toList.isSuffixOf module.location.name.toList

/-- Whether the module writes markup elements. -/
def hasMarkup (module : Module) : Bool :=
  module.nodes.any fun node =>
    node.kind = "jsx_element" || node.kind = "jsx_self_closing_element"

/-- Whether the module shares the global scope: it neither imports nor exports
at the top level. -/
def isScript (module : Module) : Bool :=
  !module.statements.any fun node =>
    node.kind = "import_statement" || node.kind = "export_statement"

/-- A text without its first and last character. -/
def unquote (text : String) : String :=
  String.ofList (text.toList.drop 1).dropLast

/-- The value of a string literal, or of a template without substitutions. -/
def literalValue? (module : Module) (node : Node) : Option String :=
  if node.kind = "string" then some (unquote (module.text node))
  else if node.kind = "template_string" then
    if (node.namedChild? "template_substitution").isSome then none
    else some (unquote (module.text node))
  else none

/-- The name in an import or export specifier, an identifier or a string
literal. -/
def specifierName (module : Module) (node : Node) : String :=
  if node.kind = "string" then unquote (module.text node)
  else module.text node

/-- The kinds of nodes that are identifiers. -/
def identifierKinds : List String :=
  ["identifier", "type_identifier", "property_identifier",
    "shorthand_property_identifier", "shorthand_property_identifier_pattern",
    "statement_identifier"]

/-- The texts of all identifiers, in order. -/
def identifiers (module : Module) : List String :=
  (module.nodes.filter fun node => node.kind ∈ identifierKinds).map module.text

/-- How often a name occurs as an identifier. -/
def occurrences (module : Module) (name : String) : Nat :=
  module.identifiers.count name

end Module

end ExportAudit
