import ExportAudit.Association
import ExportAudit.Path
import ExportAudit.Syntax.Node

/-!
# File trees

A store holds directories and files by location.  The root is always a
directory, and writing a file creates the directories on the way to it.  A
file comes with the syntax tree that the grammar of its language gives to its
bytes, and with the flag by which the parser says that the tree has an error;
both are never consulted where the file is no module.

What stands in a file tree can be asked for, on every path that leads there.
What does not stand there cannot be asked for if a name or the path is too
long.
-/

namespace ExportAudit

/-- What a file holds. -/
structure Content where
  bytes : List UInt8
  tree : Node
  hasError : Bool

/-- A file whose tree is flagged if one of its nodes marks an error or stands
for a missing token. -/
def Content.ofTree (bytes : List UInt8) (tree : Node) : Content :=
  ⟨bytes, tree, tree.preorder.any (·.isFault)⟩

/-- What stands at a location. -/
inductive Entry where
  | directory
  | file (content : Content)

/-- A file tree. -/
structure Store where
  entries : List (Location × Entry)

namespace Store

/-- The file tree that holds nothing. -/
def empty : Store := ⟨[]⟩

/-- What stands at a location. -/
def find? (store : Store) (location : Location) : Option Entry :=
  if location = .root then some .directory
  else Association.find? location store.entries

/-- Whether a directory stands at a location. -/
def isDirectory (store : Store) (location : Location) : Bool :=
  match store.find? location with
  | some .directory => true
  | _ => false

/-- The file at a location. -/
def file? (store : Store) (location : Location) : Option Content :=
  match store.find? location with
  | some (.file content) => some content
  | _ => none

/-- Whether a file stands at a location. -/
def isFile (store : Store) (location : Location) : Bool :=
  (store.file? location).isSome

/-- Whether anything stands at a location. -/
def contains (store : Store) (location : Location) : Bool :=
  (store.find? location).isSome

/-- Create a directory, and the directories on the way to it. -/
def makeDirectory (store : Store) (location : Location) : Store :=
  location.way.foldl (fun store place =>
    if store.contains place then store
    else ⟨Association.insert place .directory store.entries⟩) store

/-- Put a file at a location, creating the directories on the way to it. -/
def write (store : Store) (location : Location) (content : Content) : Store :=
  ⟨Association.insert location (.file content)
    (store.makeDirectory location.parent).entries⟩

/-- Remove what stands at a location. -/
def remove (store : Store) (location : Location) : Store :=
  ⟨store.entries.filter fun entry => entry.1 ≠ location⟩

/-- The names of the entries of a directory. -/
def names (store : Store) (directory : Location) : List String :=
  (store.entries.filter fun entry =>
    entry.1 ≠ .root && entry.1.parent = directory).map (·.1.name)

/-- The location that a path leads to, name by name.  Every name but the last
must lead to a directory, also before a `..`. -/
def follow? (store : Store) (path : Path) : Option Location :=
  path.names.foldlM (fun reached name =>
    if store.isDirectory reached then
      some (if name = ".." then reached.parent else reached.child name)
    else none) .root

/-- Whether a path leads to a directory. -/
def leadsToDirectory (store : Store) (path : Path) : Bool :=
  (store.follow? path).any store.isDirectory

/-- Whether a path leads to a file. -/
def leadsToFile (store : Store) (path : Path) : Bool :=
  (store.follow? path).any store.isFile

/-- The most bytes that a name may have. -/
def nameLimit : Nat := 255

/-- The most bytes that a path may have. -/
def pathLimit : Nat := 4095

/-- Whether following names from a location meets, in an existing directory, a
name that is too long for anything to stand there. -/
def meetsLongName (store : Store) : Location → List String → Bool
  | _, [] => false
  | reached, name :: rest =>
      store.isDirectory reached &&
        if name = ".." then store.meetsLongName reached.parent rest
        else
          (nameLimit < name.utf8ByteSize &&
            !store.contains (reached.child name)) ||
            store.meetsLongName (reached.child name) rest

/-- Ask for what a path leads to; a path that is too long cannot be asked
for. -/
def query (store : Store) (path : Path) : Except Failure Unit :=
  let missing := !(store.follow? path).any store.contains
  if missing && (pathLimit < path.text.utf8ByteSize ||
      store.meetsLongName .root path.names) then
    .error .nameTooLong
  else .ok ()

/-- Look up what stands at a location in an existing directory.  What is missing
cannot be looked up if its name or its path is too long; a name that holds the
null character is missing without being looked up. -/
def lookUp (store : Store) (location : Location) : Except Failure Unit :=
  let tooLong := nameLimit < location.name.utf8ByteSize ||
    pathLimit < location.text.utf8ByteSize
  if tooLong && !store.contains location && !location.path.holdsNull then
    .error .nameTooLong
  else .ok ()

/-- Whether a file stands on the way to a location. -/
def isBlocked (store : Store) (location : Location) : Bool :=
  location.parent.way.any store.isFile

end Store

end ExportAudit
