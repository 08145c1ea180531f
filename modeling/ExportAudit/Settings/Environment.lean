import ExportAudit.Settings
import ExportAudit.Settings.Interpolation
import ExportAudit.Text.Integer
import ExportAudit.Text.Letter
import ExportAudit.Text.Line
import ExportAudit.Text.Quoted
import ExportAudit.Text.Utf8

/-!
# Settings from the environment

Settings come from environment variables and from a file of assignments.  A
variable that is already set wins over the file, and in the file a later
assignment wins over an earlier one.  Values given on the command line override
both, but the environment has to be valid nevertheless.
-/

namespace ExportAudit

/-- Variables and their values. -/
abbrev Environment := List (String × String)

/-- Why settings could not be read. -/
inductive SettingsError where
  | unknownPolicy (value : String)
  | notAnInteger (value : String)
  | tooManyDigits (count : Nat)
  | notPositive (value : Int)
  | notUtf8 (fault : Text.Utf8.Fault)
  | nullCharacter
  | invalidName
  deriving DecidableEq

/-- How much of a quoted value is shown where an integer was expected. -/
def shownLength : Nat := 200

/-- What is wrong with bytes, in words. -/
def Text.Utf8.FaultKind.reason : Text.Utf8.FaultKind → String
  | .noFirstByte => "invalid start byte"
  | .noFurtherByte => "invalid continuation byte"
  | .incomplete => "unexpected end of data"

/-- A fault of bytes with its place, in words. -/
def Text.Utf8.Fault.message (fault : Text.Utf8.Fault) : String :=
  let place :=
    if fault.length = 1 then
      "byte 0x" ++ String.ofList (Text.hexDigits 2 fault.byte.toNat) ++
        " in position " ++ toString fault.start
    else
      "bytes in position " ++ toString fault.start ++ "-" ++
        toString (fault.start + fault.length - 1)
  "'utf-8' codec can't decode " ++ place ++ ": " ++ fault.kind.reason

/-- The reason in words. -/
def SettingsError.message : SettingsError → String
  | .unknownPolicy value =>
      "CHECKUP_REEXPORT_POLICY must be one of direct, transitive, got " ++
        Text.quoted value
  | .notAnInteger value =>
      "invalid literal for int() with base 10: " ++
        String.ofList ((Text.quoted value).toList.take shownLength)
  | .tooManyDigits count => Text.tooManyDigitsMessage count
  | .notPositive value => "CHECKUP_JOBS must be positive, got " ++ toString value
  | .notUtf8 fault => fault.message
  | .nullCharacter => "embedded null byte"
  | .invalidName => "illegal environment variable name"

namespace Environment

/-- The value of a variable. -/
def get? (environment : Environment) (name : String) : Option String :=
  Association.find? name environment

/-- The environment with one more variable.  No variable holds a null
character, and no name an equals sign. -/
def define (environment : Environment) (name value : String) :
    Except SettingsError Environment :=
  if '\x00' ∈ name.toList ∨ '\x00' ∈ value.toList then .error .nullCharacter
  else if '=' ∈ name.toList then .error .invalidName
  else .ok (environment ++ [(name, value)])

/-- The environment with each variable that has a value and is not set yet. -/
def extend (environment : Environment)
    (assigned : List (String × Option String)) :
    Except SettingsError Environment :=
  assigned.foldlM (fun extended entry =>
    match entry.2, extended.get? entry.1 with
    | some value, none => extended.define entry.1 value
    | _, _ => .ok extended) environment

/-- The text of a file without the mark of its encoding. -/
def withoutMark : List Char → List Char
  | '\ufeff' :: rest => rest
  | text => text

/-- The environment with the assignments of a file for variables that are not
set. -/
def extendByFile (environment : Environment) (bytes : List UInt8) :
    Except SettingsError Environment := do
  let text ← (Text.Utf8.decode bytes).mapError .notUtf8
  environment.extend (Assignment.evaluate environment (Assignment.readAll
    (Text.unifyLineBreaks (withoutMark text.toList))))

end Environment

namespace Environment

/-- A value without surrounding blanks, in lower case. -/
def normalized (value : String) : String :=
  Text.lower (String.ofList (Text.trim value.toList))

/-- The policy that the environment asks for. -/
def reexportPolicy (environment : Environment) :
    Except SettingsError ReexportPolicy :=
  match environment.get? "CHECKUP_REEXPORT_POLICY" with
  | none => .ok .direct
  | some value =>
      match ReexportPolicy.ofLabel? (normalized value) with
      | some policy => .ok policy
      | none => .error (.unknownPolicy value)

/-- The most workers that are used unless the environment asks for more. -/
def defaultJobLimit : Int := 8

/-- The number of workers for a number of processors, which may be unknown. -/
def defaultJobs (processors : Option Int) : Int :=
  let known :=
    match processors with
    | none => 1
    | some count => if count = 0 then 1 else count
  min defaultJobLimit known

/-- The number of workers that the environment asks for. -/
def jobs (environment : Environment) (processors : Option Int) :
    Except SettingsError Int :=
  match environment.get? "CHECKUP_JOBS" with
  | none | some "" => .ok (defaultJobs processors)
  | some value =>
      match Text.readInteger value.toList with
      | .error .malformed => .error (.notAnInteger value)
      | .error (.tooManyDigits count) => .error (.tooManyDigits count)
      | .ok count =>
          if count < 1 then .error (.notPositive count) else .ok count

/-- Whether a switch is on; it is on if the variable is not set. -/
def switch (environment : Environment) (name : String) : Bool :=
  match environment.get? name with
  | none => true
  | some value => normalized value ∈ ["1", "true", "yes", "on"]

/-- Whether the environment asks for findings on unused local names. -/
def checkUnusedLocals (environment : Environment) : Bool :=
  environment.switch "CHECKUP_DEAD_LOCALS"

/-- Whether the environment asks for findings on class components. -/
def checkClassComponents (environment : Environment) : Bool :=
  environment.switch "CHECKUP_CLASS_COMPONENTS"

end Environment

/-- Settings that override those of the environment. -/
structure Overrides where
  reexportPolicy : Option ReexportPolicy
  jobs : Option Int
  checkUnusedLocals : Option Bool
  checkClassComponents : Option Bool

/-- The settings of an analysis of a directory. -/
def Environment.settings (environment : Environment) (processors : Option Int)
    (base : Location) (overrides : Overrides) : Except SettingsError Settings := do
  let policy ← environment.reexportPolicy
  let jobs ← environment.jobs processors
  return {
    base := base
    reexportPolicy := overrides.reexportPolicy.getD policy
    jobs := overrides.jobs.getD jobs
    checkUnusedLocals :=
      overrides.checkUnusedLocals.getD environment.checkUnusedLocals
    checkClassComponents :=
      overrides.checkClassComponents.getD environment.checkClassComponents }

end ExportAudit
