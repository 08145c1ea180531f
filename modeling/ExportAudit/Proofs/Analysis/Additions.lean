import ExportAudit.Proofs.Analysis.Warnings
import ExportAudit.Proofs.Failure.Agreement

/-!
# Findings that grow by warnings

The less is used of a module, the more of its exports are reported.  Nothing
else that is found about the module depends on its usage, so the findings only
grow, and only by warnings about unused exports.
-/

namespace ExportAudit

/-- A list of findings is another one with warnings about unused exports
added. -/
inductive AddsWarnings : List Diagnostic → List Diagnostic → Prop where
  | nil : AddsWarnings [] []
  | keep {finding : Diagnostic} {fewer more : List Diagnostic}
      (rest : AddsWarnings fewer more) :
      AddsWarnings (finding :: fewer) (finding :: more)
  | add {finding : Diagnostic} {name : String} {fewer more : List Diagnostic}
      (warns : finding.WarnsUnused name) (rest : AddsWarnings fewer more) :
      AddsWarnings fewer (finding :: more)

namespace AddsWarnings

theorem refl (findings : List Diagnostic) : AddsWarnings findings findings := by
  induction findings with
  | nil => exact .nil
  | cons finding rest ih => exact .keep ih

/-- Adding warnings neither loses nor alters nor reorders findings. -/
theorem sublist {fewer more : List Diagnostic}
    (adds : AddsWarnings fewer more) : fewer.Sublist more := by
  induction adds with
  | nil => exact .slnil
  | keep _ ih => exact .cons_cons _ ih
  | add _ _ ih => exact .cons _ ih

theorem append {fewer more fewerLater moreLater : List Diagnostic}
    (adds : AddsWarnings fewer more)
    (addsLater : AddsWarnings fewerLater moreLater) :
    AddsWarnings (fewer ++ fewerLater) (more ++ moreLater) := by
  induction adds with
  | nil => exact addsLater
  | keep _ ih => exact .keep ih
  | add warns _ ih => exact .add warns ih

theorem flatten {fewer more : List (List Diagnostic)}
    (sections : List.Forall₂ AddsWarnings fewer more) :
    AddsWarnings fewer.flatten more.flatten := by
  induction sections with
  | nil => exact .nil
  | cons first _ ih => exact first.append ih

/-- Analyses that agree at every element of a list agree when their findings are
put together. -/
theorem agree_sections {ι : Type} {values : List ι}
    {fewer more : ι → Except Failure (List Diagnostic)}
    (each : ∀ value ∈ values, Agree AddsWarnings (fewer value) (more value)) :
    Agree AddsWarnings (List.flatten <$> values.mapM fewer)
      (List.flatten <$> values.mapM more) := by
  apply (Agree.mapM each).map
  intro fewerSections moreSections sections
  exact flatten sections

end AddsWarnings

variable {settings : Settings} {less more : Usage}

/-- The less is used, the more exports are reported. -/
theorem unusedExports_adds {exports : List Export} {occurrences : String → Nat}
    {file : String} (atMost : less ≤ more) :
    AddsWarnings (unusedExports exports more occurrences file)
      (unusedExports exports less occurrences file) := by
  have names := (Usage.le_iff.mp atMost).2
  induction exports with
  | nil => exact .nil
  | cons symbol rest ih =>
      simp only [unusedExports, List.filter_cons, decide_eq_true_eq] at ih ⊢
      by_cases used : symbol.name ∈ less
      · rw [if_neg (not_not_intro used),
          if_neg (not_not_intro (names symbol.name used))]
        exact ih
      · rw [if_pos used]
        by_cases usedMore : symbol.name ∈ more
        · rw [if_neg (not_not_intro usedMore)]
          exact .add ⟨rfl, symbol, _, rfl, rfl⟩ ih
        · rw [if_pos usedMore]
          exact .keep ih

theorem Module.findings_agree {module : Module} {file : String}
    (atMost : less ≤ more) :
    Agree AddsWarnings (module.findings settings more file)
      (module.findings settings less file) := by
  have grown (others : List Diagnostic) :
      AddsWarnings
        (others ++ unusedExports module.exports more
          (fun name => module.identifiers.count name) file)
        (others ++ unusedExports module.exports less
          (fun name => module.identifiers.count name) file) :=
    (AddsWarnings.refl others).append (unusedExports_adds atMost)
  simp only [Module.findings]
  cases settings.checkUnusedLocals with
  | false => exact .given (grown _)
  | true =>
      cases module.unusedLocalsFinding? file with
      | none => exact .failed Failure.splitCharacter
      | some finding => exact .given (grown _)

/-- The findings on a module agree up to added warnings if it is used less. -/
theorem Scan.findings_agree {scan : Scan}
    {fewer greater : UsageIndex Location}
    (atMost : fewer.usage scan.location ≤ greater.usage scan.location) :
    Agree AddsWarnings (scan.findings settings greater)
      (scan.findings settings fewer) := by
  simp only [Scan.findings]
  cases scan.outcome with
  | error error => exact .given (.refl _)
  | ok module => exact Module.findings_agree atMost

end ExportAudit
