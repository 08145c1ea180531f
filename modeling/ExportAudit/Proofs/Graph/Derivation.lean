import ExportAudit.Proofs.Graph.Building
import ExportAudit.Proofs.Graph.Settling

/-!
# Transitive usage as a least relation

`UsesAll` and `UsesName` say what counts as used when re-exports pass usage on:
they are the least relations closed under one rule for each kind of reference.
`usageIndex_transitive_exact` says that the index computed in rounds holds
exactly what can be derived, in whatever order a round takes the re-exports.
-/

namespace ExportAudit

variable {μ : Type}

mutual

/-- Everything that a module exports counts as used. -/
inductive UsesAll (modules : List μ) (references : List (Reference μ)) :
    μ → Prop where
  | own {reference : Reference μ} (kept : reference.Kept modules references)
      (own : reference.kind.forwards = false)
      (everything : reference.uses = .all) :
      UsesAll modules references reference.target
  | star {reference : Reference μ} (kept : reference.Kept modules references)
      (kind : reference.kind = .starForward)
      (source : UsesAll modules references reference.source) :
      UsesAll modules references reference.target
  | namespaceName {reference : Reference μ}
      (kept : reference.Kept modules references)
      (kind : reference.kind = .namespaceForward)
      (source : UsesName modules references reference.source
        reference.namespaceName) :
      UsesAll modules references reference.target
  | namespaceAll {reference : Reference μ}
      (kept : reference.Kept modules references)
      (kind : reference.kind = .namespaceForward)
      (source : UsesAll modules references reference.source) :
      UsesAll modules references reference.target

/-- An export name of a module counts as used. -/
inductive UsesName (modules : List μ) (references : List (Reference μ)) :
    μ → String → Prop where
  | own {reference : Reference μ} {name : String}
      (kept : reference.Kept modules references)
      (own : reference.kind.forwards = false)
      (used : name ∈ reference.uses) :
      UsesName modules references reference.target name
  | forwardName {reference : Reference μ} {forward : Forward}
      (kept : reference.Kept modules references)
      (kind : reference.kind = .forward)
      (passed : forward ∈ reference.forwards)
      (source : UsesName modules references reference.source
        forward.exported) :
      UsesName modules references reference.target forward.imported
  | forwardAll {reference : Reference μ} {forward : Forward}
      (kept : reference.Kept modules references)
      (kind : reference.kind = .forward)
      (passed : forward ∈ reference.forwards)
      (source : UsesAll modules references reference.source) :
      UsesName modules references reference.target forward.imported
  | star {reference : Reference μ} {name : String}
      (kept : reference.Kept modules references)
      (kind : reference.kind = .starForward)
      (source : UsesName modules references reference.source name)
      (different : name ≠ "default") :
      UsesName modules references reference.target name

end

theorem UsesAll.target_mem {modules : List μ} {references : List (Reference μ)}
    {target : μ} (derived : UsesAll modules references target) :
    target ∈ modules := by
  cases derived with
  | own kept | star kept | namespaceName kept | namespaceAll kept =>
      exact kept.target_mem

/-! ## What a re-export passes on -/

namespace Reference

variable {reference : Reference μ} {usage : Usage}

theorem mem_forwarded_of_forward (kind : reference.kind = .forward)
    {forward : Forward} (passed : forward ∈ reference.forwards)
    (used : forward.exported ∈ usage) :
    forward.imported ∈ reference.forwarded usage := by
  simp only [forwarded, kind, Usage.mem_ofList, List.mem_map, List.mem_filter,
    decide_eq_true_eq]
  exact ⟨forward, ⟨passed, used⟩, rfl⟩

theorem forwarded_all_of_star (kind : reference.kind = .starForward) :
    reference.forwarded .all = .all := by
  simp [forwarded, kind]

theorem mem_forwarded_of_star (kind : reference.kind = .starForward)
    {name : String} (used : name ∈ usage) (different : name ≠ "default") :
    name ∈ reference.forwarded usage := by
  cases usage with
  | all => simp [forwarded, kind]
  | only names =>
      simp only [forwarded, kind, Usage.mem_only, OrderedSet.mem_erase]
      exact ⟨used, different⟩

theorem forwarded_of_namespace (kind : reference.kind = .namespaceForward)
    (used : reference.namespaceName ∈ usage) :
    reference.forwarded usage = .all := by
  simp [forwarded, kind, used]

/-- A re-export respects facts that are closed under the rule for its kind. -/
theorem respects_of_rules {all : μ → Prop} {named : μ → String → Prop}
    (passes : reference.kind.forwards = true)
    (forward : reference.kind = .forward →
      ∀ forward ∈ reference.forwards,
        all reference.source ∨ named reference.source forward.exported →
          named reference.target forward.imported)
    (starAll : reference.kind = .starForward →
      all reference.source → all reference.target)
    (starName : reference.kind = .starForward →
      ∀ name, name ≠ "default" → named reference.source name →
        named reference.target name)
    (whole : reference.kind = .namespaceForward →
      all reference.source ∨
        named reference.source reference.namespaceName →
          all reference.target) :
    reference.Respects all named := by
  intro usage within
  have granted : ∀ name ∈ usage,
      all reference.source ∨ named reference.source name := by
    intro name used
    exact (within.of_mem used).imp_left And.right
  cases kind : reference.kind with
  | forward =>
      simp only [forwarded, kind, Usage.within_ofList, List.mem_map,
        List.mem_filter, decide_eq_true_eq]
      rintro name ⟨passed, ⟨member, used⟩, imported⟩
      subst imported
      exact forward kind passed member (granted passed.exported used)
  | starForward =>
      cases usage with
      | all =>
          rw [forwarded_all_of_star kind]
          exact starAll kind within
      | only names =>
          simp only [forwarded, kind]
          intro name member
          obtain ⟨used, different⟩ := OrderedSet.mem_erase.mp member
          exact starName kind name different (within name used)
  | namespaceForward =>
      by_cases used : reference.namespaceName ∈ usage
      · rw [forwarded_of_namespace kind used]
        exact whole kind (granted reference.namespaceName used)
      · simp only [forwarded, kind, if_neg used]
        exact Usage.within_none
  | importing | dynamicImport | require =>
      simp [kind, ReferenceKind.forwards] at passes

/-- A re-export passes on only what can be derived. -/
theorem respects_derivation {modules : List μ}
    {references : List (Reference μ)}
    (kept : reference.Kept modules references)
    (passes : reference.kind.forwards = true) :
    reference.Respects (UsesAll modules references)
      (UsesName modules references) := by
  apply respects_of_rules passes
  case forward =>
    rintro kind forward passed (everything | named)
    · exact .forwardAll kept kind passed everything
    · exact .forwardName kept kind passed named
  case starAll =>
    intro kind everything
    exact .star kept kind everything
  case starName =>
    intro kind name different named
    exact .star kept kind named different
  case whole =>
    rintro kind (everything | named)
    · exact .namespaceAll kept kind everything
    · exact .namespaceName kept kind named

/-- A re-export passes on only names that it imports or that are used of its
source. -/
theorem respects_vocabulary {vocabulary : OrderedSet String}
    (passes : reference.kind.forwards = true)
    (imported : ∀ forward ∈ reference.forwards,
      forward.imported ∈ vocabulary) :
    UsageIndex.RespectsVocabulary vocabulary reference := by
  apply respects_of_rules passes
  case forward => intro _ forward passed _; exact imported forward passed
  case starAll => intro _ _; trivial
  case starName => intro _ name _ named; exact named
  case whole => intro _ _; trivial

end Reference

/-! ## Rounds on a graph -/

namespace Graph

variable [DecidableEq μ]

theorem modules_usageOf (graph : Graph μ) (counts : Reference μ → Bool) :
    (graph.usageOf counts).modules = graph.modules := by
  simp [usageOf, UsageIndex.modules, Function.comp_def]

theorem mem_usageOf {graph : Graph μ} {counts : Reference μ → Bool}
    {entry : μ × Usage} (member : entry ∈ graph.usageOf counts) :
    entry.2 = .unionAll
      (((graph.incoming entry.1).filter counts).map (·.uses)) := by
  obtain ⟨target, _, equal⟩ := List.mem_map.mp member
  subst equal
  rfl

/-- What the counted references to a module of a graph use. -/
theorem usage_usageOf {graph : Graph μ} {counts : Reference μ → Bool}
    {target : μ} (member : target ∈ graph.modules) :
    (graph.usageOf counts).usage target = .unionAll
      (((graph.incoming target).filter counts).map (·.uses)) := by
  have listed : target ∈ (graph.usageOf counts).modules := by
    rw [modules_usageOf]
    exact member
  have found := UsageIndex.find?_eq_some_usage listed
  exact mem_usageOf (UsageIndex.mem_of_find?_eq_some found)

theorem ownUsage_inVocabulary (graph : Graph μ) :
    graph.ownUsage.InVocabulary graph.nameUniverse := by
  intro entry member
  rw [mem_usageOf member]
  apply Usage.within_unionAll
  intro usage used
  simp only [List.mem_map, List.mem_filter, incoming, List.mem_flatMap] at used
  obtain ⟨reference, ⟨⟨edge, ⟨edgeMember, _⟩, carried⟩, own⟩, equal⟩ := used
  subst equal
  cases uses : reference.uses with
  | all => trivial
  | only names =>
      intro name named
      simp only [nameUniverse, OrderedSet.mem_ofList, List.mem_flatMap]
      refine ⟨reference, ⟨edge, edgeMember, carried⟩, ?_⟩
      have notPassed : reference.kind.forwards = false := by simpa using own
      simp only [referenceNames, notPassed, uses]
      exact named

omit [DecidableEq μ] in
theorem forwarding_respects_vocabulary (graph : Graph μ) :
    ∀ reference ∈ graph.forwarding,
      UsageIndex.RespectsVocabulary graph.nameUniverse reference := by
  intro reference member
  obtain ⟨listed, passes⟩ := List.mem_filter.mp member
  apply reference.respects_vocabulary passes
  intro forward passed
  simp only [nameUniverse, OrderedSet.mem_ofList, List.mem_flatMap]
  refine ⟨reference, List.mem_flatMap.mp listed, ?_⟩
  simp only [referenceNames, passes, if_true]
  exact List.mem_map.mpr ⟨forward, passed, rfl⟩

/-- On a graph rounds end within the limit, in whatever order a round takes the
re-exports. -/
theorem exists_settles_ownUsage (graph : Graph μ) {order : List (Reference μ)}
    (rearranged : order.Perm graph.forwarding) :
    ∃ final rounds, UsageIndex.Settles order graph.ownUsage final rounds ∧
      rounds ≤ graph.roundLimit := by
  have within := graph.ownUsage_inVocabulary
  have respects : ∀ reference ∈ order,
      UsageIndex.RespectsVocabulary graph.nameUniverse reference :=
    fun reference member => graph.forwarding_respects_vocabulary reference
      (rearranged.mem_iff.mp member)
  obtain ⟨final, rounds, settles, bound⟩ :=
    UsageIndex.exists_settles graph.ownUsage within respects
  have limit := UsageIndex.weight_le (settles.within within respects)
  rw [settles.modules_eq, ownUsage, modules_usageOf] at limit
  refine ⟨final, rounds, settles, ?_⟩
  unfold roundLimit
  omega

/-- The computed usage is the one in which rounds end. -/
theorem settles_settledUsage (graph : Graph μ) :
    UsageIndex.Settles graph.forwarding graph.ownUsage
      graph.settledUsage.1 graph.settledUsage.2 := by
  obtain ⟨final, rounds, settles, bound⟩ :=
    graph.exists_settles_ownUsage (List.Perm.refl _)
  have computed : graph.settledUsage = (final, rounds) :=
    settles.settle_eq bound
  rw [computed]
  exact settles

end Graph

/-! ## The index holds exactly what can be derived -/

section Exactness

variable [DecidableEq μ] {modules : List μ} {references : List (Reference μ)}

/-- An index lacks nothing: it holds what references use that are no re-exports,
and what re-exports pass on. -/
structure UsageIndex.Closed (modules : List μ) (references : List (Reference μ))
    (index : UsageIndex μ) : Prop where
  own : ∀ reference : Reference μ, reference.Kept modules references →
    reference.kind.forwards = false →
    reference.uses ≤ index.usage reference.target
  passed : ∀ reference : Reference μ, reference.Kept modules references →
    reference.kind.forwards = true →
    reference.forwarded (index.usage reference.source) ≤
      index.usage reference.target

namespace UsageIndex.Closed

variable {index : UsageIndex μ}

mutual

theorem usage_eq_all (closed : Closed modules references index) :
    {target : μ} → UsesAll modules references target →
    index.usage target = .all
  | _, .own kept own everything =>
      (Usage.le_iff.mp (closed.own _ kept own)).1 everything
  | _, .star kept kind source => by
      have passes := closed.passed _ kept (by rw [kind]; rfl)
      have whole := closed.usage_eq_all source
      rw [whole] at passes
      exact (Usage.le_iff.mp passes).1 (Reference.forwarded_all_of_star kind)
  | _, .namespaceName kept kind source => by
      have passes := closed.passed _ kept (by rw [kind]; rfl)
      have used := closed.mem_usage source
      exact (Usage.le_iff.mp passes).1
        (Reference.forwarded_of_namespace kind used)
  | _, .namespaceAll kept kind source => by
      have passes := closed.passed _ kept (by rw [kind]; rfl)
      have whole := closed.usage_eq_all source
      rw [whole] at passes
      exact (Usage.le_iff.mp passes).1
        (Reference.forwarded_of_namespace kind (Usage.mem_all _))

theorem mem_usage (closed : Closed modules references index) :
    {target : μ} → {name : String} →
    UsesName modules references target name → name ∈ index.usage target
  | _, name, .own kept own used =>
      (Usage.le_iff.mp (closed.own _ kept own)).2 name used
  | _, _, .forwardName kept kind passed source => by
      have passes := closed.passed _ kept (by rw [kind]; rfl)
      have used := closed.mem_usage source
      exact (Usage.le_iff.mp passes).2 _
        (Reference.mem_forwarded_of_forward kind passed used)
  | _, _, .forwardAll kept kind passed source => by
      have passes := closed.passed _ kept (by rw [kind]; rfl)
      have whole := closed.usage_eq_all source
      rw [whole] at passes
      exact (Usage.le_iff.mp passes).2 _
        (Reference.mem_forwarded_of_forward kind passed (Usage.mem_all _))
  | _, name, .star kept kind source different => by
      have passes := closed.passed _ kept (by rw [kind]; rfl)
      have used := closed.mem_usage source
      exact (Usage.le_iff.mp passes).2 name
        (Reference.mem_forwarded_of_star kind used different)

end

end UsageIndex.Closed

namespace Graph

variable {order : List (Reference μ)} {final : UsageIndex μ} {rounds : Nat}

/-- An index of counted references stays within facts that hold of what each of
them uses. -/
theorem usageOf_within {counts : Reference μ → Bool} {all : μ → Prop}
    {named : μ → String → Prop}
    (each : ∀ reference : Reference μ, reference.Kept modules references →
      counts reference = true →
      reference.uses.Within (all reference.target) (named reference.target)) :
    ((build modules references).usageOf counts).Within all named := by
  intro entry member
  rw [mem_usageOf member]
  apply Usage.within_unionAll
  intro usage used
  obtain ⟨reference, counted, equal⟩ := List.mem_map.mp used
  obtain ⟨incoming, counts⟩ := List.mem_filter.mp counted
  obtain ⟨kept, atTarget⟩ := mem_incoming_build.mp incoming
  subst equal
  rw [← atTarget]
  exact each reference kept counts

/-- The index in which rounds end stays within facts that hold of what the other
references use and that every re-export respects. -/
theorem settled_within {all : μ → Prop} {named : μ → String → Prop}
    (own : ∀ reference : Reference μ, reference.Kept modules references →
      reference.kind.forwards = false →
      reference.uses.Within (all reference.target) (named reference.target))
    (passed : ∀ reference : Reference μ, reference.Kept modules references →
      reference.kind.forwards = true → reference.Respects all named)
    (rearranged : order.Perm (build modules references).forwarding)
    (settles : UsageIndex.Settles order
      (build modules references).ownUsage final rounds) :
    final.Within all named := by
  apply settles.within
  · apply usageOf_within
    intro reference kept counts
    have notPassed : reference.kind.forwards = false := by simpa using counts
    exact own reference kept notPassed
  · intro reference member
    obtain ⟨kept, passes⟩ :=
      mem_forwarding_build.mp (rearranged.mem_iff.mp member)
    exact passed reference kept passes

/-- Only what can be derived is in the index in which rounds end. -/
theorem settled_within_derivation
    (rearranged : order.Perm (build modules references).forwarding)
    (settles : UsageIndex.Settles order
      (build modules references).ownUsage final rounds) :
    final.Within (UsesAll modules references)
      (UsesName modules references) := by
  refine settled_within ?_ ?_ rearranged settles
  · intro reference kept own
    cases uses : reference.uses with
    | all => exact .own kept own uses
    | only names =>
        intro name named
        exact .own kept own (by rw [uses]; exact named)
  · intro reference kept passes
    exact reference.respects_derivation kept passes

/-- Nothing is lacking in the index in which rounds end. -/
theorem settled_closed
    (rearranged : order.Perm (build modules references).forwarding)
    (settles : UsageIndex.Settles order
      (build modules references).ownUsage final rounds) :
    final.Closed modules references := by
  constructor
  case own =>
    intro reference kept own
    have member : reference.target ∈ (build modules references).modules :=
      mem_build_modules.mpr kept.target_mem
    refine Usage.le_trans ?_ (settles.usage_le reference.target)
    rw [ownUsage, usage_usageOf member]
    apply Usage.le_unionAll
    apply List.mem_map.mpr
    refine ⟨reference, List.mem_filter.mpr ⟨?_, by simp [own]⟩, rfl⟩
    exact mem_incoming_build.mpr ⟨kept, rfl⟩
  case passed =>
    intro reference kept passes
    have listed : reference.target ∈
        (build modules references).ownUsage.modules := by
      rw [ownUsage, modules_usageOf]
      exact mem_build_modules.mpr kept.target_mem
    apply settles.forwarded_le (ownUsage_inVocabulary _)
    · exact fun other member => forwarding_respects_vocabulary _ other
        (rearranged.mem_iff.mp member)
    · exact rearranged.mem_iff.mpr (mem_forwarding_build.mpr ⟨kept, passes⟩)
    · exact listed

/-- Where rounds end, `all` and names stand exactly where they are derived. -/
theorem settled_exact
    (rearranged : order.Perm (build modules references).forwarding)
    (settles : UsageIndex.Settles order
      (build modules references).ownUsage final rounds) (target : μ) :
    (final.usage target = .all ↔ UsesAll modules references target) ∧
      ∀ names, final.usage target = .only names →
        ∀ name, name ∈ names ↔ UsesName modules references target name := by
  have within := (settled_within_derivation rearranged settles).usage target
  have closed := settled_closed rearranged settles
  constructor
  · constructor
    · intro everything
      rw [everything] at within
      exact within
    · exact closed.usage_eq_all
  · intro names finite name
    constructor
    · intro member
      rw [finite] at within
      exact within name member
    · intro derived
      have member := closed.mem_usage derived
      rw [finite] at member
      exact member

theorem settled_modules
    (settles : UsageIndex.Settles order
      (build modules references).ownUsage final rounds) :
    final.modules = (build modules references).modules := by
  rw [settles.modules_eq, ownUsage, modules_usageOf]

/-- The order in which rounds take the re-exports has no effect on where they
end. -/
theorem settled_unique {otherOrder : List (Reference μ)}
    {otherFinal : UsageIndex μ} {otherRounds : Nat}
    (rearranged : order.Perm (build modules references).forwarding)
    (settles : UsageIndex.Settles order
      (build modules references).ownUsage final rounds)
    (otherRearranged : otherOrder.Perm (build modules references).forwarding)
    (otherSettles : UsageIndex.Settles otherOrder
      (build modules references).ownUsage otherFinal otherRounds) :
    final = otherFinal := by
  apply UsageIndex.ext_usage
  case nodup =>
    rw [settled_modules settles]
    exact nodup_build_modules modules references
  case sameModules =>
    rw [settled_modules settles, settled_modules otherSettles]
  case sameUsage =>
    intro target _
    have exact := settled_exact rearranged settles target
    have otherExact := settled_exact otherRearranged otherSettles target
    cases usage : final.usage target with
    | all =>
        exact (otherExact.1.mpr (exact.1.mp usage)).symm
    | only names =>
        cases otherUsage : otherFinal.usage target with
        | all =>
            have everything := exact.1.mpr (otherExact.1.mp otherUsage)
            rw [usage] at everything
            cases everything
        | only otherNames =>
            have same : names = otherNames := by
              apply OrderedSet.ext
              intro name
              rw [exact.2 names usage name,
                otherExact.2 otherNames otherUsage name]
            rw [same]

/-- Rounds end, in whatever order a round takes the re-exports, and they end in
the index under the transitive policy.  Its entries are those of the modules: an
entry is `all` exactly where that can be derived, and elsewhere it holds exactly
the names that can be derived. -/
theorem usageIndex_transitive_exact (modules : List μ)
    (references : List (Reference μ)) (order : List (Reference μ))
    (rearranged : order.Perm (build modules references).forwarding) :
    let graph := build modules references
    let index := graph.usageIndex .transitive
    (∃ rounds, UsageIndex.Settles order graph.ownUsage index rounds) ∧
    ∀ target,
      ((∃ usage, Association.find? target index = some usage) ↔
        target ∈ modules) ∧
      (Association.find? target index = some .all ↔
        UsesAll modules references target) ∧
      ∀ names, Association.find? target index = some (.only names) ↔
        target ∈ modules ∧ ¬ UsesAll modules references target ∧
          ∀ name, name ∈ names ↔ UsesName modules references target name := by
  intro graph index
  have settles : UsageIndex.Settles graph.forwarding graph.ownUsage index
      graph.settledUsage.2 := graph.settles_settledUsage
  have listed : ∀ target, target ∈ index.modules ↔ target ∈ modules := by
    intro target
    rw [settled_modules settles]
    exact mem_build_modules
  constructor
  · obtain ⟨final, rounds, otherSettles, _⟩ :=
      graph.exists_settles_ownUsage rearranged
    have same : final = index :=
      settled_unique rearranged otherSettles (List.Perm.refl _) settles
    exact ⟨rounds, same ▸ otherSettles⟩
  · intro target
    have exact := settled_exact (List.Perm.refl _) settles target
    refine ⟨?_, ?_, ?_⟩
    · rw [UsageIndex.exists_find?_iff]
      exact listed target
    · rw [← exact.1]
      constructor
      · exact UsageIndex.usage_eq_of_find?
      · intro everything
        have member := (exact.1.mp everything).target_mem
        rw [UsageIndex.find?_eq_some_usage ((listed target).mpr member),
          everything]
    · intro names
      constructor
      · intro found
        have finite := UsageIndex.usage_eq_of_find? found
        refine ⟨?_, ?_, exact.2 names finite⟩
        · exact (listed target).mp
            (UsageIndex.exists_find?_iff.mp ⟨_, found⟩)
        · rw [← exact.1, finite]
          simp
      · rintro ⟨member, finite, holds⟩
        rw [UsageIndex.find?_eq_some_usage ((listed target).mpr member)]
        cases usage : index.usage target with
        | all => exact absurd (exact.1.mp usage) finite
        | only found =>
            have same : found = names := by
              apply OrderedSet.ext
              intro name
              rw [holds name, exact.2 found usage name]
            rw [same]

/-- Two barrels, 1 and 2, that re-export each other; 1 passes on a name of 0
under another name, which 3 imports from 2. -/
def barrelCycle : List (Reference Nat) :=
  [⟨1, 0, .ofList ["a"], 1, .forward, [⟨"a", "b"⟩]⟩,
    ⟨1, 2, .all, 2, .starForward, []⟩,
    ⟨2, 1, .all, 1, .starForward, []⟩,
    ⟨3, 2, .ofList ["b"], 1, .importing, []⟩]

/-- Through the cycle of barrels exactly the imported name of 0 is used, also if
each round takes the re-exports backwards. -/
theorem usesName_barrelCycle :
    (build [0, 1, 2, 3] barrelCycle).forwarding.reverse.Perm
      (build [0, 1, 2, 3] barrelCycle).forwarding ∧
    ¬ UsesAll [0, 1, 2, 3] barrelCycle 0 ∧
    ∀ name, name ∈ OrderedSet.ofList ["a"] ↔
      UsesName [0, 1, 2, 3] barrelCycle 0 name := by
  have rearranged := List.reverse_perm
    (build [0, 1, 2, 3] barrelCycle).forwarding
  have exact := usageIndex_transitive_exact [0, 1, 2, 3] barrelCycle
    (build [0, 1, 2, 3] barrelCycle).forwarding.reverse rearranged
  have computed : Association.find? 0
      ((build [0, 1, 2, 3] barrelCycle).usageIndex .transitive) =
        some (.ofList ["a"]) := by decide
  exact ⟨rearranged, (((exact.2 0).2.2 _).mp computed).2⟩

end Graph

end Exactness

end ExportAudit
