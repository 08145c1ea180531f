import ExportAudit.Proofs.Failure.Propagation
import ExportAudit.Proofs.Text.Boundary
import ExportAudit.Settings.Environment

/-!
# Settings given on the command line

A setting that is given on the command line has the given value, and every other
one has the value that its variable asks for: a variable of the environment, else
one of the file of assignments, else the default.  A variable whose text asks for
nothing is an error, also where the setting is given.
-/

namespace ExportAudit

/-! ## Variables of a file -/

namespace Environment

theorem get?_define {environment extended : Environment} {name value : String}
    (defined : environment.define name value = .ok extended) (other : String) :
    extended.get? other = (environment.get? other).or
      (if name = other then some value else none) := by
  rw [define] at defined
  split at defined
  · cases defined
  · split at defined
    · cases defined
    · cases defined
      exact Association.find?_append other environment _

/-- A variable keeps the value that it has, or else gets the one that is assigned
to it. -/
theorem get?_extend {environment extended : Environment}
    {assigned : List (String × Option String)}
    (distinct : (Association.keys assigned).Nodup)
    (grown : environment.extend assigned = .ok extended) (name : String) :
    extended.get? name =
      (environment.get? name).or (Association.find? name assigned).join := by
  induction assigned generalizing environment with
  | nil =>
      cases grown
      simp [Association.find?]
  | cons entry assigned ih =>
      obtain ⟨absent, others⟩ := List.nodup_cons.mp distinct
      obtain ⟨between, step, rest⟩ := bind_eq_ok.mp grown
      rw [ih others rest, Association.find?]
      dsimp only at step
      split at step
      · next value assigns unset =>
        rw [get?_define step name]
        by_cases same : entry.1 = name
        · subst same
          simp [unset, assigns]
        · simp [same]
      · next kept =>
        cases step
        by_cases same : entry.1 = name
        · subst same
          have last : Association.find? entry.1 assigned = none :=
            Association.find?_eq_none_of_notMem absent
          rw [last, if_pos rfl]
          cases value : entry.2 with
          | none => rfl
          | some value =>
              cases held : environment.get? entry.1 with
              | none => exact (kept _ value held).elim
              | some own => rfl
        · rw [if_neg same]

end Environment

/-- Each variable of a file has one value. -/
theorem Assignment.nodup_keys_evaluate (environment : Environment)
    (assignments : List Assignment) :
    (Association.keys (evaluate environment assignments)).Nodup := by
  refine List.foldlRecOn (motive := fun assigned =>
    (Association.keys assigned).Nodup) assignments _ List.nodup_nil ?_
  intro assigned distinct assignment _
  rw [Association.keys_insert]
  split
  · exact distinct
  · next absent =>
    refine List.nodup_append.mpr ⟨distinct, List.pairwise_singleton _ _, ?_⟩
    intro name listed other new same
    cases List.mem_singleton.mp new
    exact absent (same ▸ listed)

namespace Environment

/-- The variables that a text assigns, with their values. -/
def assignedBy (environment : Environment) (text : String) :
    List (String × Option String) :=
  Assignment.evaluate environment (Assignment.readAll
    (Text.unifyLineBreaks (withoutMark text.toList)))

theorem get?_extendByFile {environment extended : Environment}
    {bytes : List UInt8}
    (loads : environment.extendByFile bytes = .ok extended) :
    ∃ text, Text.Utf8.decode bytes = .ok text ∧
      ∀ name, extended.get? name = (environment.get? name).or
        (Association.find? name (environment.assignedBy text)).join := by
  obtain ⟨text, decoded, grown⟩ := bind_eq_ok.mp loads
  exact ⟨text, mapError_eq_ok.mp decoded,
    get?_extend (Assignment.nodup_keys_evaluate environment _) grown⟩

/-! ## What variables ask for -/

/-- The value that a variable asks for: the default if it is not set, and
otherwise what its text is read as. -/
inductive Asks {α : Type} (environment : Environment) (name : String)
    (default : α) (reads : String → α → Prop) : α → Prop where
  | unset (absent : environment.get? name = none) :
      Asks environment name default reads default
  | set {text : String} {value : α}
      (present : environment.get? name = some text) (read : reads text value) :
      Asks environment name default reads value

/-- A text names a policy, with blanks around it and in any case. -/
def NamesPolicy (text : String) (policy : ReexportPolicy) : Prop :=
  normalized text = policy.label

/-- How many workers a text asks for: as many as usual if it is empty, and
otherwise the positive number that it is. -/
inductive Counts (processors : Option Int) : String → Int → Prop where
  | usual : Counts processors "" (defaultJobs processors)
  | number {text : String} {count : Int} (nonempty : text ≠ "")
      (written : Text.readInteger text.toList = .ok count)
      (positive : 1 ≤ count) : Counts processors text count

/-- A text turns a switch on, or else off. -/
def Turns (text : String) (on : Bool) : Prop :=
  on = true ↔ normalized text ∈ ["1", "true", "yes", "on"]

/-- The policy that the environment asks for. -/
def AsksPolicy (environment : Environment) : ReexportPolicy → Prop :=
  environment.Asks "CHECKUP_REEXPORT_POLICY" .direct NamesPolicy

/-- The number of workers that the environment asks for. -/
def AsksJobs (environment : Environment) (processors : Option Int) : Int → Prop :=
  environment.Asks "CHECKUP_JOBS" (defaultJobs processors) (Counts processors)

/-- How the environment asks a switch to be. -/
def AsksSwitch (environment : Environment) (name : String) : Bool → Prop :=
  environment.Asks name true Turns

section

variable {α : Type} {environment : Environment} {name text : String}
  {default value : α} {reads : String → α → Prop}

theorem asks_of_unset (absent : environment.get? name = none) :
    environment.Asks name default reads value ↔ value = default := by
  constructor
  · intro asked
    cases asked with
    | unset => rfl
    | set present => cases absent.symm.trans present
  · intro same
    exact same ▸ .unset absent

theorem asks_of_set (present : environment.get? name = some text) :
    environment.Asks name default reads value ↔ reads text value := by
  constructor
  · intro asked
    cases asked with
    | unset absent => cases absent.symm.trans present
    | set found read =>
        cases present.symm.trans found
        exact read
  · exact .set present

end

end Environment

theorem ReexportPolicy.ofLabel?_eq_some {text : String} {policy : ReexportPolicy} :
    ofLabel? text = some policy ↔ text = policy.label := by
  constructor
  · intro found
    have same := List.find?_some found
    exact (beq_iff_eq.mp same).symm
  · intro same
    rw [same]
    cases policy <;> rfl

namespace Environment

variable {environment : Environment} {processors : Option Int}

theorem reexportPolicy_eq_ok {policy : ReexportPolicy} :
    environment.reexportPolicy = .ok policy ↔ environment.AsksPolicy policy := by
  rw [reexportPolicy, AsksPolicy]
  cases value : environment.get? "CHECKUP_REEXPORT_POLICY" with
  | none =>
      rw [asks_of_unset value, Except.ok.injEq]
      exact eq_comm
  | some text =>
      rw [asks_of_set value, NamesPolicy, ← ReexportPolicy.ofLabel?_eq_some]
      dsimp only
      split
      · next found => rw [found, Except.ok.injEq, Option.some.injEq]
      · next unknown => simp [unknown]

theorem counts_iff_of_nonempty {text : String} {count : Int}
    (nonempty : text ≠ "") :
    Counts processors text count ↔
      Text.readInteger text.toList = .ok count ∧ 1 ≤ count := by
  constructor
  · intro counts
    cases counts with
    | usual => exact absurd rfl nonempty
    | number _ written positive => exact ⟨written, positive⟩
  · exact fun known => .number nonempty known.1 known.2

theorem jobs_eq_ok {count : Int} :
    environment.jobs processors = .ok count ↔
      environment.AsksJobs processors count := by
  rw [jobs, AsksJobs]
  split
  · next value =>
    rw [asks_of_unset value, Except.ok.injEq]
    exact eq_comm
  · next value =>
    rw [asks_of_set value, Except.ok.injEq]
    constructor
    · intro same
      exact same ▸ .usual
    · intro counts
      cases counts with
      | usual => rfl
      | number nonempty => exact absurd rfl nonempty
  · next text nonempty value =>
    rw [asks_of_set value, counts_iff_of_nonempty nonempty]
    cases Text.readInteger text.toList with
    | error fault => cases fault <;> simp
    | ok found =>
        dsimp only
        split <;> simp only [Except.ok.injEq, reduceCtorEq, false_iff] <;> omega

theorem switch_eq_iff {name : String} {on : Bool} :
    environment.switch name = on ↔ environment.AsksSwitch name on := by
  rw [switch, AsksSwitch]
  cases value : environment.get? name with
  | none =>
      rw [asks_of_unset value]
      exact eq_comm
  | some text =>
      rw [asks_of_set value, Turns]
      cases on <;> simp

end Environment

/-! ## Settings -/

/-- The value of a setting: the one that is given, or else one that is asked
for. -/
inductive Chosen {α : Type} (given : Option α) (asked : α → Prop) : α → Prop where
  | given {value : α} (present : given = some value) : Chosen given asked value
  | asked {value : α} (absent : given = none) (asks : asked value) :
      Chosen given asked value

theorem chosen_getD {α : Type} {asked : α → Prop} {value : α}
    (given : Option α) (asks : asked value) :
    Chosen given asked (given.getD value) := by
  cases given with
  | none => exact .asked rfl asks
  | some own => exact .given rfl

namespace Environment

/-- Settings of a directory in which what is given comes before what the
environment asks for. -/
structure Settles (environment : Environment) (processors : Option Int)
    (base : Location) (overrides : Overrides) (settings : Settings) : Prop where
  base : settings.base = base
  reexportPolicy : Chosen overrides.reexportPolicy environment.AsksPolicy
    settings.reexportPolicy
  jobs : Chosen overrides.jobs (environment.AsksJobs processors) settings.jobs
  checkUnusedLocals : Chosen overrides.checkUnusedLocals
    (environment.AsksSwitch "CHECKUP_DEAD_LOCALS") settings.checkUnusedLocals
  checkClassComponents : Chosen overrides.checkClassComponents
    (environment.AsksSwitch "CHECKUP_CLASS_COMPONENTS")
    settings.checkClassComponents

variable {environment : Environment} {processors : Option Int} {base : Location}
  {overrides : Overrides}

theorem settles_of_settings {settings : Settings}
    (settled : environment.settings processors base overrides = .ok settings) :
    environment.Settles processors base overrides settings := by
  obtain ⟨policy, policyAsked, rest⟩ := bind_eq_ok.mp settled
  obtain ⟨jobs, jobsAsked, made⟩ := bind_eq_ok.mp rest
  cases made
  exact {
    base := rfl
    reexportPolicy := chosen_getD _ (reexportPolicy_eq_ok.mp policyAsked)
    jobs := chosen_getD _ (jobs_eq_ok.mp jobsAsked)
    checkUnusedLocals := chosen_getD _ (switch_eq_iff.mp rfl)
    checkClassComponents := chosen_getD _ (switch_eq_iff.mp rfl) }

/-- There are no settings where a variable asks for no policy or for no number of
workers, whatever is given. -/
theorem fails_settings_iff :
    Fails (environment.settings processors base overrides) ↔
      (¬ ∃ policy, environment.AsksPolicy policy) ∨
        ¬ ∃ jobs, environment.AsksJobs processors jobs := by
  have policy : Fails environment.reexportPolicy ↔
      ¬ ∃ policy, environment.AsksPolicy policy := by
    simp only [← reexportPolicy_eq_ok, exists_ok_iff, not_not]
  have jobs : Fails (environment.jobs processors) ↔
      ¬ ∃ jobs, environment.AsksJobs processors jobs := by
    simp only [← jobs_eq_ok, exists_ok_iff, not_not]
  rw [← policy, ← jobs]
  exact fails_bind_iff_or fun _ => failsBy_bind.trans (by simp)

/-- In the environment that a file extends, a given setting has the given value
and every other one the value that its variable asks for.  There are settings
unless the variable of the policy or of the number of workers asks for nothing;
so, if no variable of a given setting asks for nothing, then only one of a setting
that is not given keeps the settings from being made. -/
theorem settings_overridden {loaded : Environment} {bytes : List UInt8}
    (loads : environment.extendByFile bytes = .ok loaded) :
    (∃ text, Text.Utf8.decode bytes = .ok text ∧
      ∀ name, loaded.get? name = (environment.get? name).or
        (Association.find? name (environment.assignedBy text)).join) ∧
    (∀ settings, loaded.settings processors base overrides = .ok settings →
      loaded.Settles processors base overrides settings) ∧
    ((∃ error, loaded.settings processors base overrides = .error error) ↔
      (¬ ∃ policy, loaded.AsksPolicy policy) ∨
        ¬ ∃ jobs, loaded.AsksJobs processors jobs) ∧
    ((overrides.reexportPolicy ≠ none → ∃ policy, loaded.AsksPolicy policy) →
      (overrides.jobs ≠ none → ∃ jobs, loaded.AsksJobs processors jobs) →
      ∀ error, loaded.settings processors base overrides = .error error →
        (overrides.reexportPolicy = none ∧ ¬ ∃ policy, loaded.AsksPolicy policy) ∨
          (overrides.jobs = none ∧ ¬ ∃ jobs, loaded.AsksJobs processors jobs)) := by
  have fails : (∃ error,
      loaded.settings processors base overrides = .error error) ↔
      Fails (loaded.settings processors base overrides) := by
    simp [FailsBy]
  rw [fails, fails_settings_iff]
  refine ⟨get?_extendByFile loads, fun _ => settles_of_settings, Iff.rfl, ?_⟩
  intro policyAsked jobsAsked error failed
  have invalid := fails_settings_iff.mp (fails.mp ⟨error, failed⟩)
  exact invalid.imp
    (fun nothing => ⟨by_contra fun given => nothing (policyAsked given), nothing⟩)
    (fun nothing => ⟨by_contra fun given => nothing (jobsAsked given), nothing⟩)

/-- A number of workers that is given does not make up for a bad variable. -/
example : settings [("CHECKUP_JOBS", "0")] (some 4) .root
    ⟨none, some 2, none, none⟩ = .error (.notPositive 0) := rfl

/-! ### Variables, a file and given settings together -/

/-- An environment in which one switch is off. -/
def switchedOff : Environment := [("CHECKUP_DEAD_LOCALS", "false")]

/-- A file that asks for three workers, and for the switch to be on. -/
def workersFile : String := "CHECKUP_JOBS=3\nCHECKUP_DEAD_LOCALS=on"

/-- The environment with what the file adds to it. -/
def switchedOffWithWorkers : Environment :=
  [("CHECKUP_DEAD_LOCALS", "false"), ("CHECKUP_JOBS", "3")]

theorem extendByFile_workersFile :
    switchedOff.extendByFile (Text.Utf8.encode workersFile) =
      .ok switchedOffWithWorkers := by
  have decoded : Text.Utf8.decode (Text.Utf8.encode workersFile) =
      .ok workersFile := by
    have clean : Text.Utf8.faultFrom 0 0 0 .start
        (Text.Utf8.encode workersFile) = none := rfl
    rw [Text.Utf8.decode, clean]
    simp only [Text.Utf8.decodeLossy, Text.Utf8.decode?_encode]
  have assigned : switchedOff.assignedBy workersFile =
      [("CHECKUP_JOBS", some "3"), ("CHECKUP_DEAD_LOCALS", some "on")] := by
    cbv
  rw [assignedBy] at assigned
  rw [extendByFile, decoded]
  simp only [Except.mapError, ok_bind, assigned]
  rfl

/-- The policy is given, the workers come from the file, one switch from the
environment, and the other one is given. -/
theorem settings_overridden_mixed :
    switchedOff.extendByFile (Text.Utf8.encode workersFile) =
      .ok switchedOffWithWorkers ∧
    switchedOffWithWorkers.settings (some 4) .root
        ⟨some .transitive, none, none, some false⟩ =
      .ok ⟨.root, .transitive, 3, false, false⟩ ∧
    switchedOffWithWorkers.Settles (some 4) .root
      ⟨some .transitive, none, none, some false⟩
      ⟨.root, .transitive, 3, false, false⟩ :=
  ⟨extendByFile_workersFile, rfl,
    (settings_overridden extendByFile_workersFile).2.1 _ rfl⟩

end Environment

end ExportAudit
