import ExportAudit.Usage

/-!
# References between modules

A reference is one construct of a module that names another module: an import,
a re-export or a call.  It says what it proves used in the module it names.
Re-exports also say under which names they pass on what they take.
-/

namespace ExportAudit

/-- The construct behind a reference. -/
inductive ReferenceKind where
  | importing
  | forward
  | starForward
  | namespaceForward
  | dynamicImport
  | require
  deriving DecidableEq

namespace ReferenceKind

/-- The name of a kind in listings. -/
def label : ReferenceKind → String
  | .importing => "import"
  | .forward => "forward"
  | .starForward => "star-forward"
  | .namespaceForward => "namespace-forward"
  | .dynamicImport => "dynamic-import"
  | .require => "require"

/-- The kind with a given label. -/
def ofLabel? (text : String) : Option ReferenceKind :=
  [importing, forward, starForward, namespaceForward, dynamicImport,
    require].find? (·.label == text)

/-- Whether the construct passes names on to the users of its own module. -/
def forwards : ReferenceKind → Bool
  | .forward | .starForward | .namespaceForward => true
  | .importing | .dynamicImport | .require => false

end ReferenceKind

/-- A name taken from a module and the name under which it is passed on. -/
structure Forward where
  imported : String
  exported : String
  deriving DecidableEq

/-- One construct of the module `source` that names the module `target`. -/
structure Reference (μ : Type) where
  source : μ
  target : μ
  uses : Usage
  line : Nat
  kind : ReferenceKind
  forwards : List Forward
  deriving DecidableEq

namespace Reference

variable {μ : Type}

/-- The name under which a whole namespace is passed on. -/
def namespaceName (reference : Reference μ) : String :=
  match reference.forwards with
  | [] => "*"
  | forward :: _ => forward.exported

/-- What a reference proves used in its target when forwarded names count only
as far as the source's own exports are used. -/
def forwarded (reference : Reference μ) (sourceUsage : Usage) : Usage :=
  match reference.kind with
  | .forward =>
      .ofList ((reference.forwards.filter fun forward =>
        decide (forward.exported ∈ sourceUsage)).map (·.imported))
  | .starForward =>
      match sourceUsage with
      | .all => .all
      | .only names => .only (names.erase "default")
  | .namespaceForward =>
      if reference.namespaceName ∈ sourceUsage then .all else .none
  | .importing | .dynamicImport | .require => reference.uses

end Reference

end ExportAudit
