import ExportAudit.Diagnostic
import ExportAudit.Module

/-!
# Class components

A module has a class component if one of its classes has a method named
`render`.
-/

namespace ExportAudit.Module

/-- The kinds of nodes that are classes. -/
def classKinds : List String :=
  ["class_declaration", "abstract_class_declaration", "class"]

/-- Whether a member of a class is its rendering method. -/
def isRenderMethod (module : Module) (member : Node) : Bool :=
  member.kind = "method_definition" &&
    (member.childByField "name").any fun name => module.text name = "render"

/-- Whether a node is a class with a rendering method. -/
def isComponentClass (module : Module) (node : Node) : Bool :=
  node.kind ∈ classKinds &&
    (node.childByField "body").any fun body =>
      body.namedChildren.any module.isRenderMethod

/-- Whether a module has a class component. -/
def hasComponentClass (module : Module) : Bool :=
  module.nodes.any module.isComponentClass

/-- What is said about a class component. -/
def componentMessage : String :=
  "Looks like this file contains a class-based React component. " ++
    "Consider using a function-based React component instead."

/-- The finding on class components, if there is one. -/
def componentFinding? (module : Module) (file : String) : Option Diagnostic :=
  if module.hasComponentClass then
    some ⟨.warn, componentMessage, some file, none⟩
  else none

end ExportAudit.Module
