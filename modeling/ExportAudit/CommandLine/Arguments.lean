import ExportAudit.Settings.Environment

/-!
# Command-line arguments

A command is followed by its options and at most one path, in any order.  The
value of an option follows it as the next argument, or after an equals sign;
the value of a one-letter option may also follow the letter directly.  After
`--` everything is a path.  If an option is given several times, the last one
counts.
-/

namespace ExportAudit.CommandLine

/-- Why arguments could not be understood. -/
inductive UsageError where
  | missingCommand
  | unknownCommand (name : String)
  | unknownOption (name : String)
  | missingValue (name : String)
  | unexpectedValue (name : String)
  | extraArgument (text : String)
  | unknownPolicy (text : String)
  | invalidJobs (text : String)
  deriving DecidableEq

/-- The reason in words. -/
def UsageError.message : UsageError → String
  | .missingCommand => "Missing command."
  | .unknownCommand name => "No such command " ++ Text.quoted name ++ "."
  | .unknownOption name => "No such option: " ++ name
  | .missingValue name => "Option " ++ Text.quoted name ++ " requires an argument."
  | .unexpectedValue name =>
      "Option " ++ Text.quoted name ++ " does not take a value."
  | .extraArgument text => "Got unexpected extra argument (" ++ text ++ ")"
  | .unknownPolicy text =>
      Text.quoted text ++ " is not one of 'direct', 'transitive'."
  | .invalidJobs text => Text.quoted text ++ " is not a positive number of jobs."

/-- The options of a command. -/
inductive Flag where
  | reexportPolicy
  | jobs
  | unusedLocals (wanted : Bool)
  | classComponents (wanted : Bool)
  | json
  | strict
  deriving DecidableEq

namespace Flag

/-- Whether an option has a value. -/
def takesValue : Flag → Bool
  | .reexportPolicy | .jobs => true
  | _ => false

/-- The options of the `check` command by name. -/
def checkFlags : List (String × Flag) :=
  [("--reexport-policy", .reexportPolicy), ("--jobs", .jobs), ("-j", .jobs),
    ("--dead-locals", .unusedLocals true),
    ("--no-dead-locals", .unusedLocals false),
    ("--class-components", .classComponents true),
    ("--no-class-components", .classComponents false),
    ("--json", .json), ("--strict", .strict)]

end Flag

/-- Arguments sorted into options with their values and positional ones, each
in the order given. -/
structure Sorted where
  flags : List (Flag × String)
  positional : List String

/-- Arguments with one more option in front. -/
def Sorted.addFlag (sorted : Sorted) (flag : Flag) (value : String) : Sorted :=
  { sorted with flags := (flag, value) :: sorted.flags }

/-- Arguments with one more positional one in front. -/
def Sorted.addPositional (sorted : Sorted) (text : String) : Sorted :=
  { sorted with positional := text :: sorted.positional }

/-- An argument that starts with a hyphen, split at its equals sign. -/
def splitValue (argument : String) : String × Option String :=
  let text := argument.toList
  let name := String.ofList (text.takeWhile (· ≠ '='))
  match text.dropWhile (· ≠ '=') with
  | _ :: value => (name, some (String.ofList value))
  | [] => (name, none)

/-- Whether an argument is an option: it starts with a hyphen and goes on. -/
def isOption (argument : String) : Bool :=
  match argument.toList with
  | '-' :: _ :: _ => true
  | _ => false

/-- Whether an option has one hyphen and one letter as its name. -/
def isShortName (name : String) : Bool :=
  match name.toList with
  | ['-', letter] => letter ≠ '-'
  | _ => false

/-- What an argument asks for: the option it names, and its value if the
argument holds it. -/
def recognize (known : List (String × Flag)) (argument : String) :
    Except UsageError (Flag × Option String) :=
  let (name, value) := splitValue argument
  match if isShortName name then none else known.lookup name with
  | some flag =>
      if value.isSome && !flag.takesValue then .error (.unexpectedValue name)
      else .ok (flag, value)
  | none =>
      match argument.toList with
      | '-' :: letter :: rest =>
          match known.lookup (String.ofList ['-', letter]) with
          | some flag =>
              if letter = '-' then .error (.unknownOption name)
              else .ok (flag, if rest.isEmpty then none else some (String.ofList rest))
          | none => .error (.unknownOption name)
      | _ => .error (.unknownOption name)

/-- Sort the arguments of a command. -/
def sort (known : List (String × Flag)) :
    List String → Except UsageError Sorted
  | [] => .ok ⟨[], []⟩
  | argument :: rest =>
      if argument = "--" then .ok ⟨[], rest⟩
      else if isOption argument then
        match recognize known argument with
        | .error error => .error error
        | .ok (flag, some value) => do
            let sorted ← sort known rest
            return sorted.addFlag flag value
        | .ok (flag, none) =>
            if flag.takesValue then
              match rest with
              | value :: others => do
                  let sorted ← sort known others
                  return sorted.addFlag flag value
              | [] => .error (.missingValue argument)
            else do
              let sorted ← sort known rest
              return sorted.addFlag flag ""
      else do
        let sorted ← sort known rest
        return sorted.addPositional argument

/-- What the `check` command is asked to do. -/
structure CheckRequest where
  path : String
  overrides : Overrides
  json : Bool
  strict : Bool

/-- A command. -/
inductive Command where
  | check (request : CheckRequest)
  | projects (path : String)

/-- The path among positional arguments: the current directory if there is
none. -/
def onePath : List String → Except UsageError String
  | [] => .ok "."
  | [path] => .ok path
  | _ :: extra :: _ => .error (.extraArgument extra)

/-- The policy that a text names, in whatever case. -/
def readPolicy (text : String) : Except UsageError ReexportPolicy :=
  match ReexportPolicy.ofLabel? (Text.foldCase text) with
  | some policy => .ok policy
  | none => .error (.unknownPolicy text)

/-- Whether a character may stand among the digits of an argument. -/
def isNumeral (character : Char) : Bool :=
  ('0' ≤ character && character ≤ '9') || character = '_'

/-- Whether a text is empty, or a point followed by zeros only. -/
def isZeroFraction : List Char → Bool
  | [] => true
  | '.' :: rest => rest.all (· = '0')
  | _ => false

/-- The positive number that an argument names.  It may be padded, may have a
plus sign, leading zeros, single underscores between digits, and a fraction of
zeros. -/
def readPositive? (text : String) : Option Nat :=
  let body :=
    match Text.withoutPadding text.toList with
    | '+' :: rest => rest
    | rest => rest
  let numeral := body.takeWhile isNumeral
  if numeral.head? = some '_' || !isZeroFraction (body.dropWhile isNumeral) then
    none
  else
    (Text.readNatural (numeral.dropWhile fun character =>
      character = '0' || character = '_')).toOption

/-- The positive number of workers that a text names. -/
def readJobs (text : String) : Except UsageError Int :=
  match readPositive? text with
  | some count => .ok count
  | none => .error (.invalidJobs text)

/-- The last value given to an option. -/
def lastValue? (flags : List (Flag × String)) (flag : Flag) : Option String :=
  (flags.reverse.find? fun entry => entry.1 = flag).map (·.2)

/-- The last of the choices that a function picks out among the options. -/
def lastChoice? (flags : List (Flag × String)) (choice : Flag → Option Bool) :
    Option Bool :=
  flags.reverse.findSome? fun entry => choice entry.1

/-- The request that sorted arguments make of the `check` command. -/
def checkRequest (sorted : Sorted) : Except UsageError CheckRequest := do
  let path ← onePath sorted.positional
  let policy ← (lastValue? sorted.flags .reexportPolicy).mapM readPolicy
  let jobs ← (lastValue? sorted.flags .jobs).mapM readJobs
  return {
    path := path
    overrides := {
      reexportPolicy := policy
      jobs := jobs
      checkUnusedLocals := lastChoice? sorted.flags fun flag =>
        match flag with
        | .unusedLocals wanted => some wanted
        | _ => none
      checkClassComponents := lastChoice? sorted.flags fun flag =>
        match flag with
        | .classComponents wanted => some wanted
        | _ => none }
    json := sorted.flags.any fun entry => entry.1 = .json
    strict := sorted.flags.any fun entry => entry.1 = .strict }

/-- The command that starts the arguments. -/
def parseCommand : List String → Except UsageError Command
  | [] => .error .missingCommand
  | name :: rest =>
      if name = "check" then do
        let sorted ← sort Flag.checkFlags rest
        let request ← checkRequest sorted
        return .check request
      else if name = "projects" then do
        let sorted ← sort [] rest
        let path ← onePath sorted.positional
        return .projects path
      else if isOption name then .error (.unknownOption name)
      else .error (.unknownCommand name)

/-- The command that arguments ask for. -/
def parse : List String → Except UsageError Command
  | "--" :: rest => parseCommand rest
  | arguments => parseCommand arguments

end ExportAudit.CommandLine
