import ExportAudit.Proofs.Analysis.Usage

/-!
# Warnings about unused exports

A warning about an unused export names the export between two marks, and nothing
after the second mark contains another, so the message of a warning tells which
name it is about.  A module is not warned about a name that its usage contains.
-/

namespace ExportAudit

/-! ## Messages -/

/-- The mark that encloses the name in a message. -/
def nameMark : Char := '\x60'

theorem nameMark_not_mem_repr (number : Int) :
    nameMark ∉ (toString number).toList := by
  have digits (size : Nat) : nameMark ∉ (Nat.repr size).toList := by
    intro member
    rw [Nat.toList_repr] at member
    have digit := Nat.isDigit_of_mem_toDigits (by decide) (by decide) member
    revert digit
    decide
  cases number with
  | ofNat size => exact digits size
  | negSucc size =>
      intro member
      have shape : toString (Int.negSucc size) = "-" ++ Nat.repr (size + 1) :=
        rfl
      rw [shape, String.toList_append, List.mem_append] at member
      rcases member with sign | size
      · revert sign
        decide
      · exact digits _ size

theorem toList_marked (name place advice : String) :
    ("\x60" ++ name ++ "\x60" ++ place ++ advice).toList =
      nameMark :: (name.toList ++ nameMark ::
        (place.toList ++ advice.toList)) := by
  simp only [String.toList_append, List.append_assoc]
  rfl

theorem exists_toList_marked {name place advice : String}
    (noPlace : nameMark ∉ place.toList) (noAdvice : nameMark ∉ advice.toList) :
    ∃ rest, nameMark ∉ rest ∧
      ("\x60" ++ name ++ "\x60" ++ place ++ advice).toList =
        nameMark :: (name.toList ++ nameMark :: rest) :=
  ⟨_, List.not_mem_append noPlace noAdvice, toList_marked ..⟩

/-- A message is the name between marks, and a rest without marks. -/
theorem toList_unusedMessage (symbol : Export) (usedInModule : Bool) :
    ∃ rest, nameMark ∉ rest ∧
      (symbol.unusedMessage usedInModule).toList =
        nameMark :: (symbol.name.toList ++ nameMark :: rest) := by
  have noAdvice : nameMark ∉ (if usedInModule then
        " seems to be only used in module, remove export statement"
      else " seems unused, consider deleting").toList := by
    cases usedInModule <;> decide
  simp only [Export.unusedMessage]
  cases symbol.line with
  | none => exact exists_toList_marked (by decide) noAdvice
  | some line =>
      have number := nameMark_not_mem_repr line
      have noPlace : nameMark ∉ (" (L" ++ toString line ++ ")").toList := by
        simp only [String.toList_append, List.mem_append, not_or]
        exact ⟨⟨by decide, number⟩, by decide⟩
      exact exists_toList_marked noPlace noAdvice

theorem append_mark_inj {first second left right : List Char}
    (noLeft : nameMark ∉ left) (noRight : nameMark ∉ right)
    (same : first ++ nameMark :: left = second ++ nameMark :: right) :
    first = second := by
  rcases List.append_eq_append_iff.mp same with ⟨extra, whole, rest⟩ |
    ⟨extra, whole, rest⟩
  · cases extra with
    | nil => rw [whole, List.append_nil]
    | cons head others =>
        rw [List.cons_append, List.cons.injEq] at rest
        exact absurd (rest.2 ▸ by simp) noLeft
  · cases extra with
    | nil => rw [whole, List.append_nil]
    | cons head others =>
        rw [List.cons_append, List.cons.injEq] at rest
        exact absurd (rest.2 ▸ by simp) noRight

/-- The message of a warning tells the name of the export. -/
theorem name_eq_of_unusedMessage_eq {left right : Export}
    {leftUsed rightUsed : Bool}
    (same : left.unusedMessage leftUsed = right.unusedMessage rightUsed) :
    left.name = right.name := by
  obtain ⟨leftRest, noLeft, leftShape⟩ := toList_unusedMessage left leftUsed
  obtain ⟨rightRest, noRight, rightShape⟩ :=
    toList_unusedMessage right rightUsed
  rw [same, rightShape, List.cons.injEq] at leftShape
  have names := append_mark_inj noRight noLeft leftShape.2
  exact (String.toList_inj.mp names).symm

/-! ## Findings about unused exports -/

/-- A finding warns that the export with a name is unused. -/
def Diagnostic.WarnsUnused (finding : Diagnostic) (name : String) : Prop :=
  finding.level = .warn ∧ ∃ (symbol : Export) (usedInModule : Bool),
    symbol.name = name ∧ finding.message = symbol.unusedMessage usedInModule

theorem componentMessage_ne_unusedMessage (symbol : Export)
    (usedInModule : Bool) :
    Module.componentMessage ≠ symbol.unusedMessage usedInModule := by
  intro same
  obtain ⟨rest, _, shape⟩ := toList_unusedMessage symbol usedInModule
  rw [← same] at shape
  have first : Module.componentMessage.toList.head? = some 'L' := by cbv
  rw [shape, List.head?_cons, Option.some.injEq] at first
  revert first
  decide

namespace Module

variable {module : Module} {settings : Settings} {usage : Usage}
  {file name : String} {findings : List Diagnostic}

/-- The finding on unused local names, if it is wanted and can be told. -/
def wantedLocals? (module : Module) (settings : Settings) (file : String) :
    Option (Option Diagnostic) :=
  if settings.checkUnusedLocals then module.unusedLocalsFinding? file
  else some none

/-- The finding on class components, if it is wanted. -/
def wantedComponent? (module : Module) (settings : Settings) (file : String) :
    Option Diagnostic :=
  if settings.checkClassComponents then module.componentFinding? file else none

/-- The findings on a loaded module are those of the other probes and then those
on its unused exports. -/
theorem findings_eq_ok :
    module.findings settings usage file = .ok findings ↔
      ∃ unusedLocals, module.wantedLocals? settings file = some unusedLocals ∧
        findings = unusedLocals.toList ++
          (module.wantedComponent? settings file).toList ++
          unusedExports module.exports usage
            (fun name => module.identifiers.count name) file := by
  unfold Module.findings wantedLocals? wantedComponent?
  cases settings.checkUnusedLocals with
  | false =>
      simp only [Bool.false_eq_true, if_false, Option.some.injEq,
        exists_eq_left']
      constructor
      · intro judged
        cases judged
        rfl
      · intro same
        rw [same]
        rfl
  | true =>
      simp only [if_true]
      cases module.unusedLocalsFinding? file with
      | none =>
          constructor
          · intro judged
            cases judged
          · rintro ⟨unusedLocals, missing, _⟩
            cases missing
      | some finding =>
          simp only [Option.some.injEq, exists_eq_left']
          constructor
          · intro judged
            cases judged
            rfl
          · intro same
            rw [same]
            rfl

theorem level_of_wantedLocals? {finding : Diagnostic}
    (wanted : module.wantedLocals? settings file = some (some finding)) :
    finding.level = .error := by
  unfold wantedLocals? unusedLocalsFinding? at wanted
  split at wanted
  · rw [Option.map_eq_some_iff] at wanted
    obtain ⟨found, _, wanted⟩ := wanted
    split at wanted
    · cases wanted
      rfl
    · cases wanted
  · cases wanted

theorem message_of_wantedComponent? {finding : Diagnostic}
    (wanted : module.wantedComponent? settings file = some finding) :
    finding.message = componentMessage := by
  unfold wantedComponent? componentFinding? at wanted
  split at wanted
  · split at wanted
    · cases wanted
      rfl
    · cases wanted
  · cases wanted

/-- No finding on a module warns of a name that its usage contains. -/
theorem not_warnsUnused_of_mem
    (judged : module.findings settings usage file = .ok findings)
    (used : name ∈ usage) :
    ∀ finding ∈ findings, ¬ finding.WarnsUnused name := by
  intro finding member warns
  obtain ⟨warned, symbol, usedInModule, named, message⟩ := warns
  rw [findings_eq_ok] at judged
  obtain ⟨unusedLocals, wanted, rfl⟩ := judged
  rw [List.mem_append, List.mem_append, Option.mem_toList,
    Option.mem_toList] at member
  rcases member with (unusedLocal | component) | unusedExport
  · rw [unusedLocal] at wanted
    rw [level_of_wantedLocals? wanted] at warned
    cases warned
  · rw [message_of_wantedComponent? component] at message
    exact componentMessage_ne_unusedMessage symbol usedInModule message
  · obtain ⟨other, unused, rfl⟩ := List.mem_map.mp unusedExport
    have same := name_eq_of_unusedMessage_eq message
    rw [named] at same
    have missing := (List.mem_filter.mp unused).2
    rw [same] at missing
    simp [used] at missing

end Module

/-- The findings about a loaded module are judged from its usage. -/
theorem Project.judged_of_reports {project : Project} {store : Store}
    {settings : Settings} {findings : List Diagnostic}
    {about : Location → List Diagnostic} {module : Module}
    (reports : project.Reports store settings findings about)
    (loaded : module ∈ project.loaded store) :
    module.findings settings
        ((project.usageIndex store settings.reexportPolicy).usage
          module.location)
        (settings.displayPath module.location) =
      .ok (about module.location) := by
  obtain ⟨member, loads⟩ := mem_loaded.mp loaded
  have judged := reports.findingsOn_eq module.location member
  unfold findingsOn Scan.findings at judged
  rw [loads] at judged
  exact judged

end ExportAudit
