import ExportAudit.Module
import ExportAudit.Store

/-!
# Loading modules

A module is loaded from a store.  Loading fails if the file has no known
language, cannot be read, is not UTF-8, or has a tree that is flagged as
erroneous.  The line of such an error is that of the first fault of the tree,
if one is found.
-/

namespace ExportAudit

/-- Why a module could not be loaded. -/
inductive LoadError where
  | unsupportedType (suffix : String)
  | notFound
  | isDirectory
  | notADirectory
  | nameTooLong
  | notUtf8
  | syntaxFault (line : Option Nat)
  deriving DecidableEq

namespace LoadError

/-- The reason in words. -/
def reason : LoadError → String
  | .unsupportedType suffix => "unsupported file type '" ++ suffix ++ "'"
  | .notFound => "cannot read file (No such file or directory)"
  | .isDirectory => "cannot read file (Is a directory)"
  | .notADirectory => "cannot read file (Not a directory)"
  | .nameTooLong => "cannot read file (File name too long)"
  | .notUtf8 => "file is not valid UTF-8"
  | .syntaxFault (some line) => "syntax error on line " ++ toString line
  | .syntaxFault none => "syntax error"

/-- The line of the fault, if it has one. -/
def line? : LoadError → Option Nat
  | .syntaxFault line => line
  | _ => none

end LoadError

namespace Module

/-- The first place where a tree does not follow the grammar. -/
def firstFault? (root : Node) : Option Node := root.walk.find? (·.isFault)

/-- Load the content of a file as a module. -/
def ofContent (location : Location) (language : Language) (content : Content) :
    Except LoadError Module :=
  if (Text.Utf8.decode? content.bytes).isNone then .error .notUtf8
  else if content.hasError then
    .error (.syntaxFault ((firstFault? content.tree).map fun node =>
      lineAt content.bytes node.start))
  else .ok ⟨location, content.bytes, language, content.tree⟩

/-- Load the module at a location. -/
def load (store : Store) (location : Location) : Except LoadError Module :=
  match Language.ofSuffix? location.suffix with
  | none => .error (.unsupportedType location.suffix)
  | some language =>
      match store.find? location with
      | some (.file content) => ofContent location language content
      | some .directory => .error .isDirectory
      | none =>
          if (store.query location.path).toOption.isNone then
            .error .nameTooLong
          else if store.isBlocked location then .error .notADirectory
          else .error .notFound

end Module

end ExportAudit
