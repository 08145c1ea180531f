import ExportAudit.Proofs.Analysis.Additions
import ExportAudit.Proofs.Analysis.Halting

/-!
# The two re-export policies

The transitive policy is the stricter one: whatever it counts as used the direct
policy counts as well.  So an analysis under the transitive policy reports all
that it reports under the direct policy, in the same order, and beyond that only
warnings about unused exports.
-/

namespace ExportAudit

/-! ## Re-exports of a module -/

namespace Module

variable {module : Module} {resolver : Resolver} {node : Node}
  {reference : Reference Location}

theorem bounded_of_importReference?
    (made : module.importReference? resolver node = some reference) :
    reference.Bounded := by
  simp only [importReference?, Option.bind_eq_bind,
    Option.bind_eq_some_iff] at made
  obtain ⟨target, _, made⟩ := made
  split at made <;> cases made <;> exact Reference.bounded_of_own rfl

theorem bounded_of_forwardReference?
    (made : module.forwardReference? resolver node = some reference) :
    reference.Bounded := by
  simp only [forwardReference?, Option.bind_eq_bind,
    Option.bind_eq_some_iff] at made
  obtain ⟨target, _, made⟩ := made
  split at made
  · cases made
    exact Reference.bounded_of_all rfl
  · split at made
    · cases made
      exact Reference.bounded_of_forward rfl rfl
    · cases made
      exact Reference.bounded_of_all rfl

theorem bounded_of_callReference?
    (made : module.callReference? resolver node = some reference) :
    reference.Bounded := by
  simp only [callReference?, Option.bind_eq_bind,
    Option.bind_eq_some_iff] at made
  obtain ⟨kind, _, target, _, made⟩ := made
  cases made
  exact Reference.bounded_of_all rfl

/-- No reference of a module passes on more than it uses. -/
theorem bounded_of_mem_references
    (member : reference ∈ module.references resolver) : reference.Bounded := by
  obtain ⟨node, _, made⟩ := List.mem_filterMap.mp member
  simp only [nodeReference?] at made
  split at made
  · exact bounded_of_importReference? made
  · split at made
    · exact bounded_of_forwardReference? made
    · split at made
      · exact bounded_of_callReference? made
      · cases made

end Module

/-! ## Analyses under both policies -/

/-- Settings with another re-export policy. -/
def Settings.under (settings : Settings) (policy : ReexportPolicy) :
    Settings :=
  { settings with reexportPolicy := policy }

variable {store : Store} {settings : Settings} {base location : Location}

/-- The policy matters to the findings on a module through its usage only. -/
theorem Module.findings_under {module : Module} {policy : ReexportPolicy}
    {usage : Usage} {file : String} :
    module.findings (settings.under policy) usage file =
      module.findings settings usage file := by
  cases settings
  rfl

theorem Scan.findings_under {scan : Scan} {policy : ReexportPolicy}
    {index : UsageIndex Location} :
    scan.findings (settings.under policy) index =
      scan.findings settings index := by
  simp only [Scan.findings, Module.findings_under]
  rfl

namespace Project

variable {project : Project}

theorem usage_transitive_le_direct :
    (project.usageIndex store .transitive).usage location ≤
      (project.usageIndex store .direct).usage location := by
  apply Graph.transitiveUsage_le_directUsage
  intro reference given
  obtain ⟨module, _, member⟩ := List.mem_flatMap.mp given
  exact Module.bounded_of_mem_references member

theorem findingsOn_under (policy : ReexportPolicy) :
    project.findingsOn store (settings.under policy) location =
      Scan.findings ⟨location, Module.load store location⟩ settings
        (project.usageIndex store policy) := by
  simp only [findingsOn, Scan.findings_under]
  rfl

theorem findingsOn_policies_agree :
    Agree AddsWarnings
      (project.findingsOn store (settings.under .direct) location)
      (project.findingsOn store (settings.under .transitive) location) := by
  rw [findingsOn_under, findingsOn_under]
  exact Scan.findings_agree usage_transitive_le_direct

theorem analyze_policies_agree :
    Agree AddsWarnings (project.analyze store (settings.under .direct))
      (project.analyze store (settings.under .transitive)) := by
  by_cases workers : 0 < settings.jobs
  · have workersDirect : 0 < (settings.under .direct).jobs := workers
    have workersTransitive : 0 < (settings.under .transitive).jobs := workers
    rw [analyze_of_workers workersDirect, analyze_of_workers workersTransitive]
    apply Agree.bind (Agree.same _)
    intro _ _ _
    apply AddsWarnings.agree_sections
    intro location _
    exact findingsOn_policies_agree
  · have idleDirect : (settings.under .direct).jobs ≤ 0 :=
      Int.not_lt.mp workers
    have idleTransitive : (settings.under .transitive).jobs ≤ 0 :=
      Int.not_lt.mp workers
    rw [analyze_of_no_workers idleDirect, analyze_of_no_workers idleTransitive]
    exact .failed Failure.noWorkers

end Project

theorem analyzeConfig_policies_agree :
    Agree AddsWarnings (analyzeConfig store (settings.under .direct) location)
      (analyzeConfig store (settings.under .transitive) location) := by
  simp only [analyzeConfig]
  cases Project.load store location with
  | error error =>
      cases error with
      | unusable config fault => exact .given (.refl _)
      | stop failure => exact .failed failure
  | ok project => exact Project.analyze_policies_agree

theorem analyzeBelow_policies_agree :
    Agree AddsWarnings (analyzeBelow store (settings.under .direct) base)
      (analyzeBelow store (settings.under .transitive) base) := by
  rw [analyzeBelow_eq, analyzeBelow_eq]
  apply Agree.bind (Agree.same _)
  intro _ _ _
  split
  · exact .given (.refl _)
  · apply AddsWarnings.agree_sections
    intro location _
    exact analyzeConfig_policies_agree

/-- Under both policies an analysis fails alike, or it returns under both.  Then
what is found under the direct policy is also found under the transitive one, in
the same order, and what is found there beyond it are warnings about unused
exports. -/
theorem direct_findings_sublist_transitive (store : Store) (settings : Settings)
    (base : Location) :
    (∃ failure,
      analyzeBelow store (settings.under .direct) base = .error failure ∧
      analyzeBelow store (settings.under .transitive) base =
        .error failure) ∨
    ∃ fewer more,
      analyzeBelow store (settings.under .direct) base = .ok fewer ∧
      analyzeBelow store (settings.under .transitive) base = .ok more ∧
      fewer.Sublist more ∧ AddsWarnings fewer more := by
  have agree : Agree AddsWarnings
      (analyzeBelow store (settings.under .direct) base)
      (analyzeBelow store (settings.under .transitive) base) :=
    analyzeBelow_policies_agree
  cases agree.eq_error_or_eq_ok with
  | inl failed => exact .inl failed
  | inr returned =>
      obtain ⟨fewer, more, direct, transitive, adds⟩ := returned
      exact .inr ⟨fewer, more, direct, transitive, adds.sublist, adds⟩

end ExportAudit
