import ExportAudit.Module
import ExportAudit.Text.Blank

/-!
# Names bound by declarations

A pattern binds the identifiers that it takes values into.  A declaration binds
its own name, the names in the patterns of its declarators, or, when it only
announces other declarations, the names that those bind.
-/

namespace ExportAudit

mutual

/-- The names that a pattern binds, in order. -/
def patternNames (text : Node → String) : Node → List String
  | ⟨kind, isNamed, isMissing, start, stop, field, children⟩ =>
      if kind = "identifier" ∨ kind = "shorthand_property_identifier_pattern" then
        [text ⟨kind, isNamed, isMissing, start, stop, field, children⟩]
      else if kind = "pair_pattern" then
        fieldPatternNames text "value" children
      else if kind = "object_assignment_pattern" ∨ kind = "assignment_pattern" then
        fieldPatternNames text "left" children
      else if kind = "object_pattern" ∨ kind = "array_pattern" ∨
          kind = "rest_pattern" then
        namedPatternNames text children
      else []

/-- The names that the first child in a field binds. -/
def fieldPatternNames (text : Node → String) (field : String) :
    List Node → List String
  | [] => []
  | child :: rest =>
      if child.field = some field then patternNames text child
      else fieldPatternNames text field rest

/-- The names that the named children bind. -/
def namedPatternNames (text : Node → String) : List Node → List String
  | [] => []
  | child :: rest =>
      (if child.isNamed then patternNames text child else []) ++
        namedPatternNames text rest

end

/-- What an exported name stands for. -/
inductive ExportKind where
  | function
  | classType
  | variableBinding
  | interface
  | typeAlias
  | enumeration
  | moduleSpace
  | default
  | specifier
  | namespaceReexport
  deriving DecidableEq

namespace ExportKind

/-- The name of a kind in listings. -/
def label : ExportKind → String
  | .function => "function"
  | .classType => "class"
  | .variableBinding => "variable"
  | .interface => "interface"
  | .typeAlias => "type"
  | .enumeration => "enum"
  | .moduleSpace => "namespace"
  | .default => "default"
  | .specifier => "specifier"
  | .namespaceReexport => "namespace-reexport"

/-- The kind with a given label. -/
def ofLabel? (text : String) : Option ExportKind :=
  [function, classType, variableBinding, interface, typeAlias, enumeration,
    moduleSpace, default, specifier, namespaceReexport].find? (·.label == text)

/-- What a declaration of a given node kind declares. -/
def ofDeclaration? : String → Option ExportKind
  | "function_declaration" | "generator_function_declaration"
  | "function_signature" => some .function
  | "class_declaration" | "abstract_class_declaration" => some .classType
  | "interface_declaration" => some .interface
  | "type_alias_declaration" => some .typeAlias
  | "enum_declaration" => some .enumeration
  | "internal_module" | "module" => some .moduleSpace
  | "lexical_declaration" | "variable_declaration" => some .variableBinding
  | _ => none

end ExportKind

/-- A name bound by a declaration: the node that binds it and what it is. -/
structure Declared where
  name : String
  node : Node
  kind : ExportKind

namespace Module

/-- The names bound by the declarators of a variable declaration. -/
def declaratorNames (module : Module) (declaration : Node) : List Declared :=
  (declaration.namedChildren.filter (·.kind = "variable_declarator")).flatMap
    fun declarator =>
      match declarator.childByField "name" with
      | some pattern =>
          (patternNames module.text pattern).map fun name =>
            ⟨name, declarator, .variableBinding⟩
      | none => []

/-- The name of a declaration that has one name.  A declaration of an external
module, named by a string, binds nothing, and a dotted name binds its first
part. -/
def ownName (module : Module) (declaration : Node) (kind : ExportKind) :
    List Declared :=
  match declaration.childByField "name" with
  | none => []
  | some name =>
      if name.kind = "string" then []
      else if name.kind = "nested_identifier" then
        let first := (module.text name).toList.takeWhile (· != '.')
        [⟨String.ofList (Text.trim first), declaration, kind⟩]
      else [⟨module.text name, declaration, kind⟩]

/-- The names bound by a declaration that stands for itself. -/
def directNames (module : Module) (declaration : Node) : List Declared :=
  match ExportKind.ofDeclaration? declaration.kind with
  | none => []
  | some .variableBinding => module.declaratorNames declaration
  | some kind => module.ownName declaration kind

mutual

/-- The names bound by a declaration. -/
def declaredNames (module : Module) : Node → List Declared
  | ⟨kind, isNamed, isMissing, start, stop, field, children⟩ =>
      if kind = "ambient_declaration" then
        declaredNamesAll module children
      else if kind = "expression_statement" then
        match children.filter (·.isNamed) with
        | inner :: _ =>
            if inner.kind = "internal_module" then module.directNames inner
            else []
        | [] => []
      else
        module.directNames
          ⟨kind, isNamed, isMissing, start, stop, field, children⟩

/-- The names bound by the named nodes of a list. -/
def declaredNamesAll (module : Module) : List Node → List Declared
  | [] => []
  | child :: rest =>
      (if child.isNamed then module.declaredNames child else []) ++
        module.declaredNamesAll rest

end

end Module

end ExportAudit
