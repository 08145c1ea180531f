import ExportAudit.Association
import ExportAudit.Graph
import ExportAudit.Label

/-!
# Usage of every module of a graph

Under the direct policy a module's usage is what the references to it use.
Under the transitive policy a re-export counts only as far as the exports of
the re-exporting module are used.  That usage is computed in rounds: a round
lets every re-export pass on what is known to be used, and rounds follow one
another until one of them changes nothing.
-/

namespace ExportAudit

/-- How re-exports count as usage. -/
inductive ReexportPolicy where
  | direct
  | transitive
  deriving DecidableEq

namespace ReexportPolicy

/-- The name of a policy in settings. -/
def label : ReexportPolicy → String
  | .direct => "direct"
  | .transitive => "transitive"

/-- The policy with a given name. -/
def ofLabel? (text : String) : Option ReexportPolicy :=
  [direct, transitive].find? (·.label == text)

/-- The policy with a given name, or what is wrong with the name. -/
def ofLabel (text : String) : Except UnknownLabel ReexportPolicy :=
  match ofLabel? text with
  | some policy => .ok policy
  | none => .error (.policy text)

end ReexportPolicy

/-- The usage of each module. -/
abbrev UsageIndex (μ : Type) := List (μ × Usage)

namespace UsageIndex

variable {μ : Type} [DecidableEq μ]

/-- The usage of a module; a module that is not in the index is not used. -/
def usage (index : UsageIndex μ) (target : μ) : Usage :=
  (Association.find? target index).getD .none

/-- Add to the usage of a module that is in the index. -/
def grow (index : UsageIndex μ) (target : μ) (added : Usage) : UsageIndex μ :=
  index.map fun entry =>
    if entry.1 = target then (entry.1, entry.2.union added) else entry

/-- Let one re-export pass on what is known to be used. -/
def pass (index : UsageIndex μ) (reference : Reference μ) : UsageIndex μ :=
  index.grow reference.target
    (reference.forwarded (index.usage reference.source))

/-- Let every re-export pass on what is known to be used. -/
def round (forwarding : List (Reference μ)) (index : UsageIndex μ) :
    UsageIndex μ :=
  forwarding.foldl pass index

/-- Repeat rounds until one changes nothing, at most `limit` times.  The second
component is the number of rounds. -/
def settle (forwarding : List (Reference μ)) :
    (limit : Nat) → UsageIndex μ → UsageIndex μ × Nat
  | 0, index => (index, 0)
  | limit + 1, index =>
      let next := round forwarding index
      if next = index then (index, 1)
      else
        let (final, rounds) := settle forwarding limit next
        (final, rounds + 1)

end UsageIndex

namespace Graph

variable {μ : Type} [DecidableEq μ]

/-- What the given references to each module use. -/
def usageOf (graph : Graph μ) (counts : Reference μ → Bool) : UsageIndex μ :=
  graph.modules.map fun target =>
    (target, .unionAll (((graph.incoming target).filter counts).map (·.uses)))

/-- The usage of every module under the direct policy. -/
def directUsage (graph : Graph μ) : UsageIndex μ := graph.usageOf fun _ => true

/-- The usage that does not come from re-exports. -/
def ownUsage (graph : Graph μ) : UsageIndex μ :=
  graph.usageOf fun reference => !reference.kind.forwards

/-- The names that a reference can add to a finite usage. -/
def referenceNames (reference : Reference μ) : List String :=
  if reference.kind.forwards then reference.forwards.map (·.imported)
  else
    match reference.uses with
    | .all => []
    | .only names => names.elements

/-- Every name that can occur in a finite usage. -/
def nameUniverse (graph : Graph μ) : OrderedSet String :=
  .ofList ((graph.edges.flatMap (·.references)).flatMap referenceNames)

/-- A number of rounds within which the usage settles: every round but the last
adds a name or `all` to the usage of some module. -/
def roundLimit (graph : Graph μ) : Nat :=
  1 + graph.modules.length * (graph.nameUniverse.size + 1)

/-- The settled usage under the transitive policy and the number of rounds. -/
def settledUsage (graph : Graph μ) : UsageIndex μ × Nat :=
  UsageIndex.settle graph.forwarding graph.roundLimit graph.ownUsage

/-- The usage of every module under the transitive policy. -/
def transitiveUsage (graph : Graph μ) : UsageIndex μ := graph.settledUsage.1

/-- The usage of every module under a policy. -/
def usageIndex (policy : ReexportPolicy) (graph : Graph μ) : UsageIndex μ :=
  match policy with
  | .direct => graph.directUsage
  | .transitive => graph.transitiveUsage

end Graph

end ExportAudit
