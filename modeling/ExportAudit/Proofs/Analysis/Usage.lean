import ExportAudit.Proofs.Analysis.Sections
import ExportAudit.Proofs.Graph.Comparison

/-!
# The usage of the modules of a project

The references of all loaded modules make up the graph of a project.  Under the
direct policy a name is used if one of the references to its module uses it.
Under either policy a reference that is no re-export is never lost: the usage of
its target holds at least what the reference uses.
-/

namespace ExportAudit

/-! ## References of a module -/

namespace Module

variable {module : Module} {resolver : Resolver} {node : Node}
  {reference : Reference Location}

theorem source_of_importReference?
    (made : module.importReference? resolver node = some reference) :
    reference.source = module.location := by
  unfold importReference? at made
  rw [Option.bind_eq_bind, Option.bind_eq_some_iff] at made
  obtain ⟨target, _, made⟩ := made
  split at made <;> cases made <;> rfl

theorem source_of_forwardReference?
    (made : module.forwardReference? resolver node = some reference) :
    reference.source = module.location := by
  unfold forwardReference? at made
  rw [Option.bind_eq_bind, Option.bind_eq_some_iff] at made
  obtain ⟨target, _, made⟩ := made
  dsimp only at made
  split at made
  · cases made
    rfl
  · split at made <;> cases made <;> rfl

theorem source_of_callReference?
    (made : module.callReference? resolver node = some reference) :
    reference.source = module.location := by
  unfold callReference? at made
  rw [Option.bind_eq_bind, Option.bind_eq_some_iff] at made
  obtain ⟨kind, _, made⟩ := made
  rw [Option.bind_eq_bind, Option.bind_eq_some_iff] at made
  obtain ⟨target, _, made⟩ := made
  cases made
  rfl

/-- Every reference of a module starts at the module. -/
theorem source_of_mem_references
    (member : reference ∈ module.references resolver) :
    reference.source = module.location := by
  obtain ⟨node, _, made⟩ := List.mem_filterMap.mp member
  unfold nodeReference? at made
  split at made
  · exact source_of_importReference? made
  · split at made
    · exact source_of_forwardReference? made
    · split at made
      · exact source_of_callReference? made
      · cases made

/-- What a node anywhere in a module refers to is a reference of the module. -/
theorem mem_references_of_occurs {parent : Option Node}
    (occurs : module.root.Occurs parent node)
    (made : module.nodeReference? resolver node = some reference) :
    reference ∈ module.references resolver := by
  have listed : node ∈ module.nodes :=
    List.mem_map.mpr ⟨_, Node.mem_visits_of_occurs occurs, rfl⟩
  exact List.mem_filterMap.mpr ⟨node, listed, made⟩

/-- A literal specifier that resolves to another module names that module. -/
theorem target?_eq_some {specifier : Node} {text : String} {target : Location}
    (literal : module.literalValue? specifier = some text)
    (resolves : resolver.resolve module.location text = some target)
    (different : target ≠ module.location) :
    module.target? resolver (some specifier) = some target := by
  simp [target?, literal, resolves, different]

end Module

namespace Project

variable {project : Project} {store : Store} {location : Location}

/-! ## The graph of a project -/

/-- The locations of the modules of a project that can be loaded. -/
def loadedLocations (project : Project) (store : Store) : List Location :=
  (project.loaded store).map (·.location)

/-- The references of all loaded modules. -/
def references (project : Project) (store : Store) :
    List (Reference Location) :=
  (project.loaded store).flatMap (·.references project.resolver)

theorem usageIndex_eq (policy : ReexportPolicy) :
    project.usageIndex store policy =
      (Graph.build (project.loadedLocations store)
        (project.references store)).usageIndex policy := rfl

theorem mem_loadedLocations :
    location ∈ project.loadedLocations store ↔
      ∃ module, location ∈ project.modules ∧
        Module.load store location = .ok module := by
  unfold loadedLocations
  rw [List.mem_map]
  constructor
  · rintro ⟨module, loaded, rfl⟩
    rw [mem_loaded] at loaded
    exact ⟨module, loaded⟩
  · rintro ⟨module, member, loads⟩
    have place := Module.location_of_load loads
    subst place
    exact ⟨module, mem_loaded.mpr ⟨member, loads⟩, rfl⟩

/-- Of the references of a project the graph keeps those to loaded modules. -/
theorem kept_iff {reference : Reference Location} :
    reference.Kept (project.loadedLocations store)
        (project.references store) ↔
      reference ∈ project.references store ∧
        reference.target ∈ project.loadedLocations store := by
  constructor
  · intro kept
    exact ⟨kept.given, kept.target_mem⟩
  · rintro ⟨given, target⟩
    refine ⟨given, ?_, target⟩
    obtain ⟨module, loaded, member⟩ := List.mem_flatMap.mp given
    rw [Module.source_of_mem_references member]
    exact List.mem_map.mpr ⟨module, loaded, rfl⟩

/-- Whether a reference of a loaded module uses a name of the module at a
location. -/
def usesName (project : Project) (store : Store) (location : Location)
    (name : String) : Bool :=
  (project.references store).any fun reference =>
    reference.target = location && name ∈ reference.uses

/-- Under the direct policy the usage of a loaded module holds the names that
references to it use. -/
theorem mem_usage_direct (loaded : location ∈ project.loadedLocations store)
    {name : String} :
    name ∈ (project.usageIndex store .direct).usage location ↔
      project.usesName store location name = true := by
  rw [usageIndex_eq, Graph.usageIndex, Graph.directUsage,
    Graph.usage_usageOf (Graph.mem_build_modules.mpr loaded)]
  rw [Usage.mem_unionAll, usesName, List.any_eq_true]
  constructor
  · rintro ⟨usage, used, named⟩
    obtain ⟨reference, counted, rfl⟩ := List.mem_map.mp used
    have incoming := (List.mem_filter.mp counted).1
    obtain ⟨kept, target⟩ := Graph.mem_incoming_build.mp incoming
    exact ⟨reference, kept.given, by simp [target, named]⟩
  · rintro ⟨reference, given, used⟩
    rw [Bool.and_eq_true, decide_eq_true_eq, decide_eq_true_eq] at used
    obtain ⟨rfl, named⟩ := used
    have incoming := Graph.mem_incoming_build.mpr
      ⟨kept_iff.mpr ⟨given, loaded⟩, rfl⟩
    refine ⟨reference.uses, List.mem_map.mpr ⟨reference, ?_, rfl⟩, named⟩
    exact List.mem_filter.mpr ⟨incoming, rfl⟩

/-- Under either policy the usage of a module holds what a reference to it uses
that is no re-export. -/
theorem uses_le_usage {policy : ReexportPolicy} {reference : Reference Location}
    (given : reference ∈ project.references store)
    (target : reference.target ∈ project.loadedLocations store)
    (own : reference.kind.forwards = false) :
    reference.uses ≤
      (project.usageIndex store policy).usage reference.target := by
  have kept := kept_iff.mpr ⟨given, target⟩
  rw [usageIndex_eq]
  cases policy with
  | direct => exact Graph.uses_le_directUsage kept
  | transitive =>
      have closed := Graph.settled_closed (List.Perm.refl _)
        (Graph.settles_settledUsage (Graph.build
          (project.loadedLocations store) (project.references store)))
      exact closed.own reference kept own

/-- Different loaded modules stand at different locations. -/
theorem location_ne_of_ne {left right : Module}
    (leftLoaded : left ∈ project.loaded store)
    (rightLoaded : right ∈ project.loaded store) (different : left ≠ right) :
    left.location ≠ right.location := by
  intro same
  have loads := (mem_loaded.mp leftLoaded).2
  rw [same, (mem_loaded.mp rightLoaded).2] at loads
  cases loads
  exact different rfl

/-- The usage of a loaded module holds what a construct of another loaded module
uses of it that is no re-export. -/
theorem uses_le_usage_of_mem {policy : ReexportPolicy} {exporter user : Module}
    {reference : Reference Location}
    (exports : exporter ∈ project.loaded store)
    (uses : user ∈ project.loaded store)
    (made : reference ∈ user.references project.resolver)
    (target : reference.target = exporter.location)
    (own : reference.kind.forwards = false) :
    reference.uses ≤
      (project.usageIndex store policy).usage exporter.location := by
  have given : reference ∈ project.references store :=
    List.mem_flatMap.mpr ⟨user, uses, made⟩
  have loaded : reference.target ∈ project.loadedLocations store := by
    rw [target]
    exact List.mem_map.mpr ⟨exporter, exports, rfl⟩
  rw [← target]
  exact uses_le_usage given loaded own

end Project

end ExportAudit
