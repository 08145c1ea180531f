import ExportAudit.Failure
import ExportAudit.StrictOrder
import ExportAudit.Text.Wide

/-!
# Paths and locations

A path is absolute and is kept as it was written, apart from empty names and
`.`; it may contain `..`.  A location is a path without `..`: the place that
the path denotes when no symbolic link exists.  `Path.resolve` collapses each
`..` with the name before it.

A path that begins with exactly two slashes has a root of its own; it denotes
the same place as the path with one slash.
-/

namespace ExportAudit

/-- A place in a file tree: the names on the way from the root. -/
structure Location where
  names : List String
  deriving DecidableEq, Inhabited

/-- The root of a path. -/
inductive PathRoot where
  | single
  | double
  deriving DecidableEq

/-- An absolute path as it was written. -/
structure Path where
  root : PathRoot
  names : List String
  deriving DecidableEq

/-- Split a file name before its suffix.  The suffix starts at the last dot,
unless that dot is the first or the last character. -/
def splitSuffix (name : String) : String × String :=
  let backward := name.toList.reverse
  let after := backward.takeWhile (· != '.')
  match backward.dropWhile (· != '.') with
  | _ :: before =>
      if after.isEmpty || before.isEmpty then (name, "")
      else (String.ofList before.reverse, String.ofList ('.' :: after.reverse))
  | [] => (name, "")

namespace PathRoot

/-- The root as text. -/
def text : PathRoot → String
  | .single => "/"
  | .double => "//"

/-- The root at the start of an absolute path, if the text is one. -/
def ofText? : List Char → Option PathRoot
  | '/' :: '/' :: '/' :: _ => some .single
  | '/' :: '/' :: _ => some .double
  | '/' :: _ => some .single
  | _ => none

end PathRoot

namespace Path

/-- The names in a text: its parts between slashes, without empty ones and
`.`. -/
def splitNames (text : String) : List String :=
  ((text.toList.splitOn '/').map String.ofList).filter fun name =>
    name != "" && name != "."

/-- Join names by slashes. -/
def joinNames (names : List String) : String := "/".intercalate names

/-- The path that a text denotes at a base: the text's own path if it is
absolute, and otherwise its names below the base. -/
def join (base : Path) (text : String) : Path :=
  match PathRoot.ofText? text.toList with
  | some root => ⟨root, splitNames text⟩
  | none => { base with names := base.names ++ splitNames text }

/-- The names in a text that may hold lone surrogates. -/
def splitWideNames (text : WideText) : List String :=
  ((text.points.splitOn (.character '/')).map fun part =>
    String.ofList (part.map Point.inName)).filter fun name =>
      name != "" && name != "."

/-- The path that a text with lone surrogates denotes at a base. -/
def joinWide (base : Path) (text : WideText) : Path :=
  match PathRoot.ofText? text.shown.toList with
  | some root => ⟨root, splitWideNames text⟩
  | none => { base with names := base.names ++ splitWideNames text }

/-- The path as text. -/
def text (path : Path) : String := path.root.text ++ joinNames path.names

/-- The names that lead from a base to a path, if the base begins the path. -/
def relativeTo? (path base : Path) : Option (List String) :=
  if path.root = base.root then base.names.isPrefixOf? path.names else none

/-- Names as a relative path; no names are the base itself. -/
def relativeText (names : List String) : String :=
  if names.isEmpty then "." else joinNames names

/-- Collapse each `..` with the name before it; at the root it has no effect. -/
def collapse (names : List String) : List String :=
  (names.foldl (fun reached name =>
    if name = ".." then reached.drop 1 else name :: reached) []).reverse

/-- The location that a path denotes. -/
def resolve (path : Path) : Location := ⟨collapse path.names⟩

/-- Whether a name on a path holds the null character, which no name in a file
system can hold.  It also stands for the lone surrogates of a text that no such
name can hold. -/
def holdsNull (path : Path) : Bool :=
  path.names.any fun name => '\x00' ∈ name.toList

/-- The location that a path denotes in a file system. -/
def locate (path : Path) : Except Failure Location :=
  if path.holdsNull then .error .nullCharacter else .ok path.resolve

/-- The last name of a path, empty at a root. -/
def name (path : Path) : String := path.names.getLast?.getD ""

/-- The suffix of the last name. -/
def suffix (path : Path) : String := (splitSuffix path.name).2

end Path

namespace Location

/-- The root of the file tree. -/
def root : Location := ⟨[]⟩

/-- A location as a path. -/
def path (location : Location) : Path := ⟨.single, location.names⟩

/-- The location as text. -/
def text (location : Location) : String := location.path.text

/-- The location that a text denotes when it is read at a base. -/
def resolve (base : Location) (text : String) : Location :=
  (base.path.join text).resolve

/-- The location in a file system that a text denotes when it is read at a
base. -/
def locate (base : Location) (text : String) : Except Failure Location :=
  (base.path.join text).locate

/-- The location that a text with lone surrogates denotes at a base. -/
def resolveWide (base : Location) (text : WideText) : Location :=
  (base.path.joinWide text).resolve

/-- The location in a file system that a text with lone surrogates denotes at a
base. -/
def locateWide (base : Location) (text : WideText) : Except Failure Location :=
  (base.path.joinWide text).locate

/-- The directory that holds a location; the root holds itself. -/
def parent (location : Location) : Location := ⟨location.names.dropLast⟩

/-- The entry of a directory with a given name. -/
def child (location : Location) (name : String) : Location :=
  ⟨location.names ++ [name]⟩

/-- The locations on the way from the root to a location, both included. -/
def way (location : Location) : List Location :=
  (List.range (location.names.length + 1)).map fun length =>
    ⟨location.names.take length⟩

/-- The last name of a location, empty at the root. -/
def name (location : Location) : String := location.path.name

/-- The suffix of the last name. -/
def suffix (location : Location) : String := location.path.suffix

/-- The location with another suffix in place of its own. -/
def withSuffix (location : Location) (suffix : String) : Location :=
  location.parent.child ((splitSuffix location.name).1 ++ suffix)

/-- The names that lead from a directory to a location at or below it. -/
def relativeTo? (location base : Location) : Option (List String) :=
  location.path.relativeTo? base.path

instance : LT Location := ⟨fun left right => left.names < right.names⟩

instance : DecidableLT Location := fun left right =>
  inferInstanceAs (Decidable (left.names < right.names))

instance : StrictOrder Location where
  trans := fun first second => List.lt_trans first second
  asymm := fun before => List.lt_asymm before
  connected := fun {left right} notBefore notAfter => by
    have equal : left.names = right.names :=
      List.le_antisymm (List.not_lt.mp notAfter) (List.not_lt.mp notBefore)
    cases left
    cases right
    exact congrArg Location.mk equal

end Location

end ExportAudit
