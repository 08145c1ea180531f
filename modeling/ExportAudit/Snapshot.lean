import ExportAudit.Json.Reader
import ExportAudit.Store
import ExportAudit.Text.Utf8

/-!
# Snapshots

A snapshot describes the files of a directory together with their syntax trees.
It is an object from paths to contents: null is a directory, a text is a file
with that text, an object with `hex` is a file with those bytes, and an object
with `source` and `tree` is a module.

A node of a tree is an array of its kind, its start and its end, followed by
its field and its children.  An exclamation mark in front of the kind marks a
missing node, and a tilde a node that is not named; an empty field is no field.
-/

namespace ExportAudit.Snapshot

/-- The kind of a node without its marks, whether the node is named, and whether
it is missing. -/
def splitKind (text : String) : String × Bool × Bool :=
  let (isMissing, marked) :=
    match text.toList with
    | '!' :: rest => (true, rest)
    | rest => (false, rest)
  match marked with
  | '~' :: kind => (String.ofList kind, false, isMissing)
  | kind => (String.ofList kind, true, isMissing)

/-- A node with the given parts. -/
def makeNode (kind : String) (start stop : Int) (field : String)
    (children : List Node) : Node :=
  let (name, isNamed, isMissing) := splitKind kind
  ⟨name, isNamed, isMissing, start.toNat, stop.toNat,
    if field = "" then none else some field, children⟩

mutual

/-- The node that a value describes. -/
def node? : Json → Option Node
  | .array [.string kind, .integer start, .integer stop] =>
      some (makeNode kind.shown start stop "" [])
  | .array (.string kind :: .integer start :: .integer stop ::
      .string field :: children) => do
      let children ← nodes? children
      return makeNode kind.shown start stop field.shown children
  | _ => none

/-- The nodes that values describe. -/
def nodes? : List Json → Option (List Node)
  | [] => some []
  | value :: rest => do
      let node ← node? value
      let nodes ← nodes? rest
      return node :: nodes

end

/-- The bytes that pairs of hexadecimal digits denote. -/
def bytesOfHex? : List Char → Option (List UInt8)
  | [] => some []
  | high :: low :: rest => do
      let high ← Json.hexValue? high
      let low ← Json.hexValue? low
      let bytes ← bytesOfHex? rest
      return UInt8.ofNat (high * 16 + low) :: bytes
  | [_] => none

/-- Bytes that are no module: their tree is a bare root. -/
def plainContent (bytes : List UInt8) : Content :=
  .ofTree bytes ⟨"program", true, false, 0, bytes.length, none, []⟩

/-- The file that members describe. -/
def contentOfMembers? (members : List (WideText × Json)) : Option Content :=
  match Json.member? "hex" members, Json.member? "source" members with
  | some (.string digits), _ => (bytesOfHex? digits.shown.toList).map plainContent
  | _, some (.string source) =>
      let bytes := Text.Utf8.encode source.shown
      match Json.member? "tree" members with
      | none => some (plainContent bytes)
      | some tree => (node? tree).map (Content.ofTree bytes)
  | _, _ => none

/-- Add what one entry of a snapshot describes to a store. -/
def addFile? (directory : Location) (store : Store) (entry : WideText × Json) :
    Option Store :=
  let location := directory.resolve entry.1.shown
  match entry.2 with
  | .null => some (store.makeDirectory location)
  | .string text =>
      some (store.write location (plainContent (Text.Utf8.encode text.shown)))
  | .object members =>
      (contentOfMembers? members).map (store.write location)
  | _ => none

/-- Add what a snapshot of a directory describes to a store. -/
def addTo? (store : Store) (directory : Location)
    (entries : List (WideText × Json)) : Option Store :=
  entries.foldlM (addFile? directory) store

/-- The store that a snapshot of a directory describes. -/
def store? (directory : Location) (entries : List (WideText × Json)) :
    Option Store :=
  addTo? (Store.empty.makeDirectory directory) directory entries

end ExportAudit.Snapshot
