import ExportAudit.Failure
import ExportAudit.Json.Relaxed
import ExportAudit.Store
import ExportAudit.Text.Line
import ExportAudit.Text.Utf8

/-!
# Project descriptions

A project description is a file of relaxed JSON.  It may extend other
descriptions; what it declares itself overrides what it inherits, and of the
descriptions it extends a later one overrides an earlier one.  Paths are
resolved against the directory of the description that declares them.

A description that extends itself, directly or through others, is unusable.
The chain of descriptions being read never holds a file twice, so reading ends.
-/

namespace ExportAudit

/-- Why a project description is unusable. -/
inductive ConfigFault where
  | circular
  | unreadable
  | malformed
  | optionsNotObject
  | optionNotString (key : String)
  | pathsNotObject
  | targetsNotStrings (name : WideText)
  deriving DecidableEq

/-- The fault in words. -/
def ConfigFault.reason : ConfigFault → String
  | .circular => "circular 'extends' chain"
  | .unreadable => "cannot read file"
  | .malformed => "Not valid JSON"
  | .optionsNotObject => "'compilerOptions' must be an object"
  | .optionNotString key => "'compilerOptions." ++ key ++ "' must be a string"
  | .pathsNotObject => "'compilerOptions.paths' must be an object"
  | .targetsNotStrings name =>
      "'compilerOptions.paths' entry '" ++ name.shown ++
        "' must be a list of strings"

/-- Why a project could not be loaded: a description is unusable, or the
analysis has to stop. -/
inductive ConfigError where
  | unusable (config : Location) (fault : ConfigFault)
  | stop (failure : Failure)
  deriving DecidableEq

/-- The options that concern modules.  An option that is not declared is
absent. -/
structure Options where
  allowJs : Option Bool
  outDir : Option Location
  baseUrl : Option Location
  paths : Option (List (WideText × List WideText))
  pathsBase : Option Location

/-- A pattern and the directory of the description that declares it. -/
structure DeclaredPattern where
  directory : Location
  pattern : WideText
  deriving DecidableEq

/-- What a project description declares and inherits. -/
structure Config where
  options : Options
  files : Option (List Location)
  included : Option (List DeclaredPattern)
  excluded : Option (List DeclaredPattern)

namespace Options

/-- No option is declared. -/
def empty : Options := ⟨none, none, none, none, none⟩

/-- Options overridden by others. -/
def override (inherited own : Options) : Options where
  allowJs := own.allowJs.orElse fun _ => inherited.allowJs
  outDir := own.outDir.orElse fun _ => inherited.outDir
  baseUrl := own.baseUrl.orElse fun _ => inherited.baseUrl
  paths := own.paths.orElse fun _ => inherited.paths
  pathsBase := own.pathsBase.orElse fun _ => inherited.pathsBase

end Options

namespace Config

/-- Nothing is declared. -/
def empty : Config := ⟨.empty, none, none, none⟩

/-- A description overridden by another. -/
def override (inherited own : Config) : Config where
  options := inherited.options.override own.options
  files := own.files.orElse fun _ => inherited.files
  included := own.included.orElse fun _ => inherited.included
  excluded := own.excluded.orElse fun _ => inherited.excluded

/-- The members of the object that a description holds. -/
def readMembers (location : Location) (content : Content) :
    Except ConfigError (List (WideText × Json)) :=
  match Text.Utf8.decode? content.bytes with
  | none => .error (.unusable location .unreadable)
  | some text =>
      match Json.Relaxed.read (Text.unifyLineBreaks text.toList) with
      | .ok (.object members) => .ok members
      | .ok _ | .error .malformed => .error (.unusable location .malformed)
      | .error .tooDeep => .error (.stop .nestedTooDeeply)
      | .error (.tooManyDigits count) => .error (.stop (.tooManyDigits count))

/-- The entries of `extends`: one text, the items of an array or the keys of an
object. -/
def extendsEntries (value : Option Json) : Except Failure (List WideText) :=
  match value with
  | none => .ok []
  | some (.string entry) => .ok [entry]
  | some (.array items) =>
      .ok (items.filterMap fun item =>
        match item with
        | .string entry => some entry
        | _ => none)
  | some (.object members) => .ok (members.map (·.1))
  | some value => if value.isTruthy then .error .extendsNotIterable else .ok []

/-- The description that an entry of `extends` names.  Only relative entries
are followed; `.json` is added to a name without that suffix if nothing stands
there. -/
def extendedConfig? (store : Store) (directory : Location) (entry : WideText) :
    Except Failure (Option Location) :=
  if entry.points.head? = some (.character '.') then do
    let named ← directory.locateWide entry
    if named.suffix = ".json" then return some named
    store.query named.path
    if store.contains named then return some named
    return some (named.parent.child (named.name ++ ".json"))
  else .ok none

/-- An option that must be a text if it is declared. -/
def stringOption (options : List (WideText × Json)) (key : String) :
    Except ConfigFault (Option WideText) :=
  match Json.member? key options with
  | none => .ok none
  | some (.string value) => .ok (some value)
  | some _ => .error (.optionNotString key)

/-- The targets of one alias. -/
def aliasTargets (entry : WideText × Json) :
    Except ConfigFault (WideText × List WideText) :=
  let texts (items : List Json) : Option (List WideText) :=
    items.mapM fun item =>
      match item with
      | .string target => some target
      | _ => none
  match entry.2 with
  | .array items =>
      match texts items with
      | some targets => .ok (entry.1, targets)
      | none => .error (.targetsNotStrings entry.1)
  | _ => .error (.targetsNotStrings entry.1)

/-- The declared aliases; null declares that there are none. -/
def aliasOption (options : List (WideText × Json)) :
    Except ConfigFault (Option (List (WideText × List WideText))) :=
  match Json.member? "paths" options with
  | none => .ok none
  | some .null => .ok (some [])
  | some (.object members) => do
      let aliases ← members.mapM aliasTargets
      return some aliases
  | some _ => .error .pathsNotObject

/-- The options of a description as they are written. -/
structure DeclaredOptions where
  allowJs : Option Bool
  outDir : Option WideText
  baseUrl : Option WideText
  paths : Option (List (WideText × List WideText))

/-- The options as a description writes them. -/
def declaredOptions (members : List (WideText × Json)) :
    Except ConfigFault DeclaredOptions := do
  let options ←
    match Json.member? "compilerOptions" members with
    | none | some .null => .ok []
    | some (.object options) => .ok options
    | some _ => .error .optionsNotObject
  let outDir ← stringOption options "outDir"
  let baseUrl ← stringOption options "baseUrl"
  let paths ← aliasOption options
  return {
    allowJs := (Json.member? "allowJs" options).map (·.isTruthy)
    outDir := outDir
    baseUrl := baseUrl
    paths := paths }

/-- The options that a description declares itself, with its paths located. -/
def ownOptions (directory : Location) (inheritedBase : Option Location)
    (declared : DeclaredOptions) : Except Failure Options := do
  let outDir ← declared.outDir.mapM directory.locateWide
  let baseUrl ← declared.baseUrl.mapM directory.locateWide
  return {
    allowJs := declared.allowJs
    outDir := outDir
    baseUrl := baseUrl
    paths := declared.paths
    pathsBase := declared.paths.map fun _ =>
      ((baseUrl.orElse fun _ => inheritedBase).getD directory) }

/-- The texts of a declared list; anything but a list declares nothing. -/
def stringList? (members : List (WideText × Json)) (key : String) :
    Option (List WideText) :=
  match Json.member? key members with
  | some (.array items) =>
      some (items.filterMap fun item =>
        match item with
        | .string value => some value
        | _ => none)
  | _ => none

/-- What a description declares itself, with its paths located. -/
def own (directory : Location) (inheritedBase : Option Location)
    (declared : DeclaredOptions) (members : List (WideText × Json)) :
    Except Failure Config := do
  let options ← ownOptions directory inheritedBase declared
  let files ← (stringList? members "files").mapM fun files =>
    files.mapM directory.locateWide
  return {
    options := options
    files := files
    included := (stringList? members "include").map fun patterns =>
      patterns.map fun pattern => ⟨directory, pattern⟩
    excluded := (stringList? members "exclude").map fun patterns =>
      patterns.map fun pattern => ⟨directory, pattern⟩ }

/-- How many entries of a store have not been seen. -/
def unseen (store : Store) (seen : List Location) : Nat :=
  (store.entries.filter fun entry => entry.1 ∉ seen).length

theorem unseen_cons_lt {store : Store} {seen : List Location}
    {location : Location} {content : Content}
    (found : store.file? location = some content) (fresh : location ∉ seen) :
    unseen store (location :: seen) < unseen store seen := by
  have member : ∃ entry ∈ store.entries, entry.1 = location := by
    have present : (Association.find? location store.entries).isSome := by
      unfold Store.file? Store.find? at found
      grind
    exact Association.exists_mem_of_find?_isSome present
  obtain ⟨entry, listed, key⟩ := member
  unfold unseen
  have narrowed : store.entries.filter (fun entry => entry.1 ∉ location :: seen) =
      (store.entries.filter fun entry => entry.1 ∉ seen).filter
        fun entry => entry.1 ≠ location := by
    rw [List.filter_filter]
    refine List.filter_congr fun other _ => ?_
    by_cases same : other.1 = location <;> simp [same]
  rw [narrowed]
  apply List.length_filter_lt_length_iff_exists.mpr
  refine ⟨entry, ?_, ?_⟩
  · simp [listed, key, fresh]
  · simp [key]

/-- Read a description and everything it extends; `seen` holds the
descriptions from which this one was reached. -/
def readFrom (store : Store) (seen : List Location) (location : Location) :
    Except ConfigError Config :=
  if fresh : location ∈ seen then .error (.unusable location .circular)
  else
    match found : store.file? location with
    | none => .error (.unusable location .unreadable)
    | some content => do
        have := unseen_cons_lt found fresh
        let members ← readMembers location content
        let directory := location.parent
        let entries ←
          (extendsEntries (Json.member? "extends" members)).mapError
            ConfigError.stop
        let inherited ← entries.foldlM
          (fun inherited entry => do
            let extended ← (extendedConfig? store directory entry).mapError
              ConfigError.stop
            match extended with
            | none => return inherited
            | some parent =>
                let config ← readFrom store (location :: seen) parent
                return inherited.override config)
          empty
        let declared ← (declaredOptions members).mapError
          (ConfigError.unusable location)
        let own ← (own directory inherited.options.baseUrl declared
          members).mapError ConfigError.stop
        return inherited.override own
termination_by unseen store seen

/-- Read a description and everything it extends. -/
def read (store : Store) (location : Location) : Except ConfigError Config :=
  readFrom store [] location

end Config

end ExportAudit
