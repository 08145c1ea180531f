import ExportAudit.Failure
import ExportAudit.Pattern.Wildcard
import ExportAudit.Store
import ExportAudit.Text.Blank

/-!
# Expanding patterns in a file tree

An include or exclude pattern is read at a directory.  An absolute pattern is
read at its own root, and a `./` in front is dropped.

To expand a pattern is to find what it denotes in a file tree.  The pattern is
followed component by component: `**` leads to a directory and to every
directory below it, `..` leads to the parent, and any other component leads to
the entries whose names match it.  A component without wildcards is looked up by
its name in each directory that it is followed from.  A pattern without
wildcards that leads to a directory denotes everything below it.
-/

namespace ExportAudit.Pattern

/-- A pattern and the directory at which it is read. -/
structure Anchored where
  directory : Path
  pattern : List Char

/-- Find the directory at which a pattern is read. -/
def anchor (directory : Location) (pattern : String) : Anchored :=
  let text := Text.trim pattern.toList
  match PathRoot.ofText? text with
  | some root => ⟨⟨root, []⟩, text.drop root.text.length⟩
  | none =>
      match text with
      | '.' :: '/' :: rest => ⟨directory.path, rest⟩
      | _ => ⟨directory.path, text⟩

/-- The text without the slashes at its end. -/
def dropTrailingSlashes (text : List Char) : List Char :=
  (text.reverse.dropWhile (· = '/')).reverse

/-- A component of a pattern.  The component `here` stands for a slash at the
end of the pattern. -/
inductive Component where
  | here
  | up
  | deep
  | entry (name : List Token)
  deriving DecidableEq

/-- Whether two asterisks stand side by side in a text. -/
def hasDoubleAsterisk : List Char → Bool
  | '*' :: '*' :: _ => true
  | _ :: rest => hasDoubleAsterisk rest
  | [] => false

/-- The component that a text between slashes denotes; `**` may not be a part
of it. -/
def Component.ofText? (text : List Char) : Except Failure Component :=
  if text = ['*', '*'] then .ok .deep
  else if text = ['.', '.'] then .ok .up
  else if hasDoubleAsterisk text then .error .misplacedDeepWildcard
  else .ok (.entry (tokens text))

/-- The components of a relative pattern. -/
def components (pattern : List Char) : Except Failure (List Component) := do
  let parts := (pattern.splitOn '/').filter fun part => part ≠ [] ∧ part ≠ ['.']
  let named ← parts.mapM Component.ofText?
  return if pattern.getLast? = some '/' then named ++ [.here] else named

/-- A directory and the directories below it. -/
def directoriesFrom (store : Store) (directory : Location) : List Location :=
  directory :: (store.entries.filter fun entry =>
    entry.1 ≠ directory && (entry.1.relativeTo? directory).isSome &&
      store.isDirectory entry.1).map (·.1)

/-- What the components of a pattern lead to from a directory.  Components
before the last lead on from directories only. -/
def select (store : Store) : List Component → Location → List Location
  | [], location => [location]
  | .here :: _, location => [location]
  | .up :: rest, location => select store rest location.parent
  | .deep :: rest, location =>
      (directoriesFrom store location).flatMap (select store rest)
  | .entry name :: rest, location =>
      (((store.names location).filter fun candidate =>
          accepts name candidate.toList).map location.child).flatMap
        fun found =>
          if rest.isEmpty || store.isDirectory found then select store rest found
          else []

/-- The character that a part of a pattern stands for, if it is no wildcard.  A
bracket that is never closed counts as one. -/
def Token.literal? : Token → Option Char
  | .literal character => if character = '[' then none else some character
  | _ => none

/-- The name that a component stands for, if it has no wildcards. -/
def Component.name? : Component → Option String
  | .entry name => (name.mapM Token.literal?).map String.ofList
  | _ => none

/-- The locations that are looked up while components are followed from a
directory. -/
def lookUps (store : Store) : List Component → Location → List Location
  | [], _ => []
  | component :: rest, directory =>
      component.name?.toList.map directory.child ++
        ((select store [component] directory).filter store.isDirectory).flatMap
          (lookUps store rest)

/-- What a pattern with wildcards denotes at a directory. -/
def glob (store : Store) (directory : Path) (pattern : List Char) :
    Except Failure (List Location) := do
  if pattern.head? = some '/' then throw .absolutePattern
  let parts ← components pattern
  if store.isDirectory directory.resolve then
    (lookUps store parts directory.resolve).forM store.lookUp
    return select store parts directory.resolve
  else return []

/-- What a pattern denotes at a directory. -/
def expand (store : Store) (directory : Location) (pattern : String) :
    Except Failure (List Location) := do
  let anchored := anchor directory pattern
  if anchored.pattern.isEmpty then return []
  else if hasWildcard anchored.pattern then
    glob store anchored.directory anchored.pattern
  else
    let target := anchored.directory.join (String.ofList anchored.pattern)
    if !target.holdsNull then store.query target
    if store.leadsToDirectory target then
      glob store anchored.directory
        (dropTrailingSlashes anchored.pattern ++ "/**/*".toList)
    else if store.leadsToFile target then return [target.resolve]
    else return []

/-- Whether a location is denoted by a pattern that excludes: its path relative
to the pattern's directory, or the path of a directory on the way to it,
matches the pattern. -/
def excludes (directory : Location) (pattern : String) (location : Location) :
    Bool :=
  let anchored := anchor directory pattern
  match location.path.relativeTo? anchored.directory with
  | none => false
  | some names =>
      let relative := (Path.relativeText names).toList
      let body := dropTrailingSlashes anchored.pattern
      let covers (candidate : List Char) : Bool :=
        isMatch candidate relative || isMatch (candidate ++ ['/', '*']) relative
      body = [] || body = ['.'] || covers body ||
        match body with
        | '*' :: '*' :: '/' :: rest => covers rest
        | _ => false

end ExportAudit.Pattern
