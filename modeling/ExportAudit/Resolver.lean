import ExportAudit.OrderedSet
import ExportAudit.Path
import ExportAudit.Text.Letter

/-!
# Module resolution

The specifier of an import is resolved to a module of a closed set.  A relative
specifier is looked up from the importing module's directory.  Any other is
matched against the aliases, and after them looked up from the base directory.

A lookup probes the location itself, then the sources from which a file of that
name would be emitted, then the location with an extension added, then the
index files of the location as a directory.
-/

namespace ExportAudit

/-- What an alias matches: one specifier, or every specifier with a given start
and end. -/
inductive AliasPattern where
  | exact (specifier : List Char)
  | wildcard (start finish : List Char)

namespace AliasPattern

/-- The pattern that a text denotes; at most one `*` may stand in it. -/
def ofText? (text : List Char) : Option AliasPattern :=
  match text.splitOn '*' with
  | [specifier] => some (.exact specifier)
  | [start, finish] => some (.wildcard start finish)
  | _ => none

/-- The text that the wildcard stands for in a specifier; empty for an exact
match. -/
def capture? (specifier : List Char) : AliasPattern → Option (List Char)
  | .exact expected => if specifier = expected then some [] else none
  | .wildcard start finish =>
      if start.isPrefixOf specifier && finish.isSuffixOf specifier &&
          start.length + finish.length ≤ specifier.length then
        some ((specifier.drop start.length).take
          (specifier.length - finish.length - start.length))
      else none

/-- Whether the pattern is tried no later than another: exact patterns come
before wildcards, longer starts before shorter ones. -/
def tried : AliasPattern → AliasPattern → Bool
  | .exact left, .exact right => right.length ≤ left.length
  | .exact _, .wildcard _ _ => true
  | .wildcard _ _, .exact _ => false
  | .wildcard left _, .wildcard right _ => right.length ≤ left.length

end AliasPattern

/-- An alias and the places where its targets are looked up. -/
structure Alias where
  pattern : AliasPattern
  targets : List WideText

/-- The modules of a project and the rules that find them. -/
structure Resolver where
  modules : List Location
  baseUrl : Option Location
  aliases : List Alias
  aliasBase : Option Location

namespace Resolver

/-- Extensions of source files in the order in which they are probed. -/
def extensions : List String :=
  [".ts", ".tsx", ".d.ts", ".mts", ".cts", ".js", ".jsx", ".mjs", ".cjs"]

/-- The suffixes of the sources from which a file with a given suffix is
emitted. -/
def sourceSuffixes (emitted : String) : List String :=
  match Text.lower emitted with
  | ".js" => [".ts", ".tsx"]
  | ".jsx" => [".tsx"]
  | ".mjs" => [".mts"]
  | ".cjs" => [".cts"]
  | _ => []

/-- The locations probed for a location, in order. -/
def candidates (location : Location) : List Location :=
  location ::
    ((sourceSuffixes location.suffix).map location.withSuffix ++
      extensions.map (fun extension =>
        location.parent.child (location.name ++ extension)) ++
      extensions.map (fun extension => location.child ("index" ++ extension)))

/-- A resolver for a set of modules; the aliases are put in the order in which
they are tried. -/
def build (modules : List Location) (baseUrl : Option Location)
    (paths : List (String × List WideText)) (aliasBase : Option Location) :
    Resolver where
  modules := modules
  baseUrl := baseUrl
  aliases := (paths.filterMap fun entry =>
    (AliasPattern.ofText? entry.1.toList).map fun pattern =>
      (⟨pattern, entry.2⟩ : Alias)).mergeSort
        fun left right => left.pattern.tried right.pattern
  aliasBase := aliasBase.orElse fun _ => baseUrl

/-- The first candidate of a location that is a module. -/
def probe (resolver : Resolver) (location : Location) : Option Location :=
  (candidates location).find? fun candidate => candidate ∈ resolver.modules

/-- Whether a specifier is relative to the importing module. -/
def isRelative (specifier : String) : Bool :=
  specifier = "." || specifier = ".." ||
    "./".toList.isPrefixOf specifier.toList ||
    "../".toList.isPrefixOf specifier.toList

/-- A target of an alias with the captured text in place of each `*`. -/
def expandTarget (captured : List Char) (target : WideText) : WideText :=
  ⟨target.points.flatMap fun point =>
    if point = .character '*' then captured.map .character else [point]⟩

/-- The paths at which one alias has a specifier looked up. -/
def pathsOfAlias (base : Location) (specifier : String) (candidate : Alias) :
    List Path :=
  match candidate.pattern.capture? specifier.toList with
  | none => []
  | some captured => candidate.targets.map fun target =>
      base.path.joinWide (expandTarget captured target)

/-- The paths at which the aliases have a specifier looked up. -/
def aliasPaths (resolver : Resolver) (specifier : String) : List Path :=
  match resolver.aliasBase with
  | none => []
  | some base => resolver.aliases.flatMap (pathsOfAlias base specifier)

/-- The path at which a specifier is looked up from the base directory. -/
def basePaths (resolver : Resolver) (specifier : String) : List Path :=
  match resolver.baseUrl with
  | none => []
  | some base =>
      if specifier.toList.head? = some '/' then [] else [base.path.join specifier]

/-- The paths at which a specifier in an importing module is looked up, in
order. -/
def paths (resolver : Resolver) (importer : Location) (specifier : String) :
    List Path :=
  if specifier = "" then []
  else if isRelative specifier then [importer.parent.path.join specifier]
  else resolver.aliasPaths specifier ++ resolver.basePaths specifier

/-- The module that a specifier in an importing module denotes, if it denotes
one. -/
def resolve (resolver : Resolver) (importer : Location) (specifier : String) :
    Option Location :=
  (resolver.paths importer specifier).findSome? fun path =>
    resolver.probe path.resolve

/-- The first module at which one of the paths is located. -/
def locateFirst (resolver : Resolver) :
    List Path → Except Failure (Option Location)
  | [] => .ok none
  | path :: rest => do
      let location ← path.locate
      match resolver.probe location with
      | some module => return some module
      | none => resolver.locateFirst rest

/-- The module that a specifier in an importing module denotes in a file system,
if it denotes one. -/
def locate (resolver : Resolver) (importer : Location) (specifier : String) :
    Except Failure (Option Location) :=
  resolver.locateFirst (resolver.paths importer specifier)

end Resolver

end ExportAudit
