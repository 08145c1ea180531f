/-!
# Syntax trees

The syntax tree of a source text, as a grammar for the language gives it.  A
node covers a range of bytes of the text.  Tokens that the grammar writes as
literal text, such as keywords and brackets, are not named; a missing node
stands for a token that the text lacks.  A node may fill a field of its parent.
-/

namespace ExportAudit

/-- A node of a syntax tree. -/
structure Node where
  kind : String
  isNamed : Bool
  isMissing : Bool
  start : Nat
  stop : Nat
  field : Option String
  children : List Node
  deriving Inhabited

namespace Node

/-- The children that are named. -/
def namedChildren (node : Node) : List Node := node.children.filter (·.isNamed)

/-- The first child that fills a field. -/
def childByField (node : Node) (field : String) : Option Node :=
  node.children.find? fun child => child.field = some field

/-- The first named child of a kind. -/
def namedChild? (node : Node) (kind : String) : Option Node :=
  node.namedChildren.find? fun child => child.kind = kind

/-- Whether two nodes have the same range and kind. -/
def sameAs (left right : Node) : Bool :=
  left.start = right.start && left.stop = right.stop && left.kind = right.kind

/-- Whether a node marks a place where the text does not follow the grammar. -/
def isFault (node : Node) : Bool := node.kind = "ERROR" || node.isMissing

mutual

/-- How many nodes a tree has. -/
def size : Node → Nat
  | ⟨_, _, _, _, _, _, children⟩ => 1 + sizeAll children

/-- How many nodes the trees of a list have. -/
def sizeAll : List Node → Nat
  | [] => 0
  | node :: rest => node.size + sizeAll rest

end

mutual

/-- The nodes of a tree, each before its children, from left to right. -/
def preorder : Node → List Node
  | ⟨kind, isNamed, isMissing, start, stop, field, children⟩ =>
      ⟨kind, isNamed, isMissing, start, stop, field, children⟩ ::
        preorderAll children

/-- The nodes of the trees of a list, in order. -/
def preorderAll : List Node → List Node
  | [] => []
  | node :: rest => node.preorder ++ preorderAll rest

end

@[simp] theorem sizeAll_append (left right : List Node) :
    sizeAll (left ++ right) = sizeAll left + sizeAll right := by
  induction left with
  | nil => simp [sizeAll]
  | cons node rest ih => simp [sizeAll, ih]; omega

theorem size_eq (node : Node) : node.size = 1 + sizeAll node.children := by
  cases node
  rfl

theorem preorder_eq (node : Node) :
    node.preorder = node :: preorderAll node.children := by
  cases node
  rfl

end Node

end ExportAudit
