import ExportAudit.CommandLine
import ExportAudit.Snapshot

/-!
# The program

The program reads a snapshot of the current directory from standard input and
runs the command that its arguments ask for.
-/

namespace ExportAudit

/-- All of a stream. -/
partial def readAll (stream : IO.FS.Stream) (text : String) : IO String := do
  let line ← stream.getLine
  if line.isEmpty then return text
  readAll stream (text ++ line)

/-- The variables that settings come from, as far as they are set. -/
def readEnvironment : IO Environment :=
  ["CHECKUP_REEXPORT_POLICY", "CHECKUP_JOBS", "CHECKUP_DEAD_LOCALS",
    "CHECKUP_CLASS_COMPONENTS"].filterMapM fun name => do
      let value ← IO.getEnv name
      return value.map fun text => (name, text)

/-- The part of a locale's name that tells its encoding. -/
def localeEncoding (locale : String) : Option String :=
  match locale.toList.dropWhile (· ≠ '.') with
  | _ :: encoding => some (String.ofList (encoding.takeWhile (· ≠ '@')))
  | [] => none

/-- The console that the locale describes. -/
def readConsole : IO Console := do
  let encoding := terminalEncoding none ((← IO.getEnv "LANG").bind localeEncoding)
  return ⟨!isUtf8Encoding encoding⟩

/-- Run a command in the current directory. -/
def runHere (command : CommandLine.Command) : IO UInt32 := do
  let directory := Location.root.resolve (← IO.currentDir).toString
  let text ← readAll (← IO.getStdin) ""
  let store :=
    match Json.read? text.toList with
    | some (.object entries) => Snapshot.store? directory entries
    | _ => none
  match store with
  | none =>
      IO.eprintln "standard input holds no snapshot"
      return 2
  | some store =>
      let surroundings : CommandLine.Surroundings :=
        { store, directory, environment := ← readEnvironment,
          processors := none, console := ← readConsole }
      match CommandLine.run surroundings command with
      | .ok outcome =>
          IO.print outcome.output
          return outcome.exitCode.toUInt32
      | .error failure =>
          IO.eprintln failure.message
          return 1

end ExportAudit

/-- Run the command that the arguments ask for. -/
def main (arguments : List String) : IO UInt32 :=
  match ExportAudit.CommandLine.parse arguments with
  | .ok command => ExportAudit.runHere command
  | .error error => do
      IO.eprintln error.message
      return 2
