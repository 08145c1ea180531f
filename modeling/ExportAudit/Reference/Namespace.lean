import ExportAudit.Module
import ExportAudit.Usage

/-!
# Uses of a namespace

A module that imports a whole namespace under an alias uses of it what every
occurrence of the alias uses.  An occurrence uses known names if it is the
object of a member access, the object of an index access with a string literal,
the module part of a qualified type, the head of a dotted name, or the value
that a pattern of known keys takes apart.  Any other occurrence may use
everything.
-/

namespace ExportAudit.Module

/-- The name that an element of an object pattern takes out of a value, if it
is known. -/
def takenName? (module : Module) (element : Node) : Option String :=
  if element.kind = "shorthand_property_identifier_pattern" then
    some (module.text element)
  else if element.kind = "pair_pattern" then do
    let key ← element.childByField "key"
    if key.kind = "property_identifier" then some (module.text key)
    else if key.kind = "string" then module.literalValue? key
    else none
  else if element.kind = "object_assignment_pattern" then do
    let left ← element.childByField "left"
    if left.kind = "shorthand_property_identifier_pattern" then
      some (module.text left)
    else none
  else none

/-- The names that an object pattern takes out of a value, if all are known. -/
def takenNames? (module : Module) (pattern : Node) : Option (List String) :=
  (pattern.namedChildren.filter (·.kind ≠ "comment")).mapM module.takenName?

/-- Whether a node fills a field of its parent. -/
def fills (parent : Node) (field : String) (node : Node) : Bool :=
  match parent.childByField field with
  | some child => child.sameAs node
  | none => false

/-- The names that an occurrence as an identifier uses, if they are known. -/
def namesUsedIn? (module : Module) (parent node : Node) :
    Option (List String) :=
  if parent.kind = "member_expression" then do
    let property ← parent.childByField "property"
    if fills parent "object" node && property.kind = "property_identifier" then
      some [module.text property]
    else none
  else if parent.kind = "subscript_expression" then do
    let index ← parent.childByField "index"
    if fills parent "object" node && index.kind = "string" then
      some [unquote (module.text index)]
    else none
  else if parent.kind = "nested_type_identifier" then do
    let name ← parent.childByField "name"
    if fills parent "module" node then some [module.text name] else none
  else if parent.kind = "nested_identifier" then
    match parent.namedChildren with
    | first :: second :: rest =>
        if first.sameAs node then
          some [module.text ((second :: rest).getLast (by simp))]
        else none
    | _ => none
  else if parent.kind = "variable_declarator" then do
    let pattern ← parent.childByField "name"
    if fills parent "value" node && pattern.kind = "object_pattern" then
      module.takenNames? pattern
    else none
  else none

/-- The names that an occurrence of an alias uses, if they are known. -/
def namesUsed? (module : Module) (visit : Visit) : Option (List String) :=
  if visit.node.kind = "shorthand_property_identifier" then none
  else do
    let parent ← visit.parent
    module.namesUsedIn? parent visit.node

/-- The occurrences of an alias other than its binding. -/
def aliasUses (module : Module) (binding : Node) : List Visit :=
  module.root.visits.filter fun visit =>
    (visit.node.kind = "identifier" ||
      visit.node.kind = "shorthand_property_identifier") &&
    module.text visit.node = module.text binding &&
    !visit.node.sameAs binding

/-- What a module uses of a namespace that it imports under an alias. -/
def namespaceUsage (module : Module) (binding : Node) : Usage :=
  match (module.aliasUses binding).mapM module.namesUsed? with
  | some names => .ofList names.flatten
  | none => .all

end ExportAudit.Module
