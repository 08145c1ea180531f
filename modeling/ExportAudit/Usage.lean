import ExportAudit.OrderedSet
import ExportAudit.Text.Quoted

/-!
# Usage of a module's exports

A usage says which exports of a module are used: all of them, or the exports
with known names.  Usages form a join semilattice in which `all` absorbs.
-/

namespace ExportAudit

/-- Which exports of a module are used. -/
inductive Usage where
  | all
  | only (names : OrderedSet String)
  deriving DecidableEq

namespace Usage

/-- No export is used. -/
def none : Usage := .only .empty

/-- The exports with the given names are used. -/
def ofList (names : List String) : Usage := .only (.ofList names)

/-- A name is used. -/
def Contains : Usage → String → Prop
  | .all, _ => True
  | .only names, name => name ∈ names

instance : Membership String Usage := ⟨Contains⟩

instance (name : String) (usage : Usage) : Decidable (name ∈ usage) :=
  match usage with
  | .all => .isTrue trivial
  | .only names => inferInstanceAs (Decidable (name ∈ names))

/-- What is used according to either usage. -/
def union : Usage → Usage → Usage
  | .all, _ => .all
  | .only _, .all => .all
  | .only left, .only right => .only (left.union right)

/-- What is used according to any of the usages. -/
def unionAll (usages : List Usage) : Usage := usages.foldl union none

/-- The usage as one line of text. -/
def describe : Usage → String
  | .all => "ALL"
  | .only names =>
      "Finite([" ++ ", ".intercalate (names.elements.map Text.quoted) ++ "])"

@[simp] theorem mem_all (name : String) : name ∈ Usage.all := trivial

@[simp] theorem mem_only {name : String} {names : OrderedSet String} :
    name ∈ Usage.only names ↔ name ∈ names := .rfl

@[simp] theorem not_mem_none (name : String) : ¬ name ∈ Usage.none := by
  simp [Usage.none]

@[simp] theorem mem_union {name : String} {left right : Usage} :
    name ∈ left.union right ↔ name ∈ left ∨ name ∈ right := by
  cases left <;> cases right <;> simp [union]

@[simp] theorem mem_ofList {name : String} {names : List String} :
    name ∈ ofList names ↔ name ∈ names := by
  simp [ofList]

end Usage

end ExportAudit
