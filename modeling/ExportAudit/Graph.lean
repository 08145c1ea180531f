import ExportAudit.Reference

/-!
# The module graph

The modules of a project and, for each pair of them with a reference from the
first to the second, one edge that carries those references in order.
References to or from anything that is not a module of the graph are left out.
-/

namespace ExportAudit

/-- The references from one module to another. -/
structure Edge (μ : Type) where
  source : μ
  target : μ
  references : List (Reference μ)

/-- Modules and the edges between them. -/
structure Graph (μ : Type) where
  modules : List μ
  edges : List (Edge μ)

namespace Graph

variable {μ : Type} [DecidableEq μ]

/-- Add a reference to its edge, creating the edge if it is missing. -/
def addReference (reference : Reference μ) : List (Edge μ) → List (Edge μ)
  | [] => [⟨reference.source, reference.target, [reference]⟩]
  | edge :: rest =>
      if edge.source = reference.source ∧ edge.target = reference.target then
        { edge with references := edge.references ++ [reference] } :: rest
      else edge :: addReference reference rest

/-- The graph of some modules and references. -/
def build (modules : List μ) (references : List (Reference μ)) : Graph μ where
  modules := modules.eraseDups
  edges := references.foldl (fun edges reference =>
    if reference.source ∈ modules ∧ reference.target ∈ modules then
      addReference reference edges
    else edges) []

/-- The references to a module. -/
def incoming (graph : Graph μ) (target : μ) : List (Reference μ) :=
  (graph.edges.filter (·.target = target)).flatMap (·.references)

/-- The re-exports of the graph. -/
def forwarding (graph : Graph μ) : List (Reference μ) :=
  (graph.edges.flatMap (·.references)).filter (·.kind.forwards)

end Graph

end ExportAudit
