import ExportAudit.Module.Load
import ExportAudit.Proofs.Syntax.Position
import ExportAudit.Proofs.Text.Boundary

/-!
# Loading modules

A module that loads stands at the location from which it was loaded.  A file
loads if its language is known, its bytes are those of a text and its tree is
not flagged.
-/

namespace ExportAudit

/-- Of a flagged tree the search for a fault finds one. -/
theorem Content.hasError_ofTree (bytes : List UInt8) (tree : Node) :
    (ofTree bytes tree).hasError = (Module.firstFault? tree).isSome := by
  rw [ofTree, Module.firstFault?, Node.walk_eq_preorder, List.isSome_find?]

namespace Module

variable {store : Store} {location : Location} {module : Module}
  {language : Language}

/-- The nodes of a module in preorder. -/
theorem nodes_eq (module : Module) :
    module.nodes =
      (module.root.unpruned (fun _ => false) none).map (·.node) := by
  rw [nodes, Node.walk, Node.visits_eq]

theorem firstFault?_eq (root : Node) :
    firstFault? root =
      ((root.unpruned (fun _ => false) none).map (·.node)).find?
        (·.isFault) := by
  rw [firstFault?, Node.walk, Node.visits_eq]

theorem location_of_load (loaded : load store location = .ok module) :
    module.location = location := by
  unfold load at loaded
  split at loaded
  · cases loaded
  · split at loaded
    · unfold ofContent at loaded
      split at loaded
      · cases loaded
      · split at loaded
        · cases loaded
        · cases loaded
          rfl
    · cases loaded
    · split at loaded
      · cases loaded
      · split at loaded <;> cases loaded

/-- A file of a known language is loaded by its content. -/
theorem load_eq_ofContent {content : Content}
    (known : Language.ofSuffix? location.suffix = some language)
    (found : store.find? location = some (.file content)) :
    load store location = ofContent location language content := by
  simp only [load, known, found]

/-- A file of a known language loads if it holds a text that follows the
grammar. -/
theorem load_eq_ok {text : String} {tree : Node}
    (known : Language.ofSuffix? location.suffix = some language)
    (found : store.find? location =
      some (.file (.ofTree (Text.Utf8.encode text) tree)))
    (sound : firstFault? tree = none) :
    load store location =
      .ok ⟨location, Text.Utf8.encode text, language, tree⟩ := by
  have unflagged :
      (Content.ofTree (Text.Utf8.encode text) tree).hasError = false := by
    rw [Content.hasError_ofTree, sound]
    rfl
  rw [load_eq_ofContent known found, ofContent, unflagged]
  simp [Content.ofTree, Text.Utf8.decode?_encode]

/-- A file of a known language that does not follow the grammar does not
load. -/
theorem load_eq_syntaxFault {text : String} {tree fault : Node}
    (known : Language.ofSuffix? location.suffix = some language)
    (found : store.find? location =
      some (.file (.ofTree (Text.Utf8.encode text) tree)))
    (faulty : firstFault? tree = some fault) :
    load store location =
      .error (.syntaxFault
        (some (lineAt (Text.Utf8.encode text) fault.start))) := by
  have flagged :
      (Content.ofTree (Text.Utf8.encode text) tree).hasError = true := by
    rw [Content.hasError_ofTree, faulty]
    rfl
  rw [load_eq_ofContent known found, ofContent, flagged]
  simp [Content.ofTree, Text.Utf8.decode?_encode, faulty]

end Module

end ExportAudit
