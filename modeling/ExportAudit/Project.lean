import ExportAudit.OrderedSet
import ExportAudit.Pattern.Expansion
import ExportAudit.Pattern.Wide
import ExportAudit.Project.Config

/-!
# Projects

A project is what one project description selects: a closed set of modules and
the rules by which their imports are resolved.  Modules are the listed files
and the files that an include pattern denotes and no exclude pattern removes.
-/

namespace ExportAudit

/-- A project description and its modules. -/
structure Project where
  config : Location
  modules : OrderedSet Location
  allowJs : Bool
  baseUrl : Option Location
  paths : List (WideText × List WideText)
  pathsBase : Location

namespace Project

/-- The endings of names of typed sources. -/
def typedExtensions : List String := [".ts", ".tsx", ".mts", ".cts"]

/-- The endings of names of untyped sources. -/
def untypedExtensions : List String := [".js", ".jsx", ".mjs", ".cjs"]

/-- Directories that are never searched. -/
def excludedDirectories : List String :=
  ["node_modules", "bower_components", "jspm_packages", ".git", ".hg", ".svn",
    "vendor", "third_party", ".next", ".nuxt", ".turbo", ".cache", "coverage"]

/-- The patterns that are excluded unless a description says otherwise. -/
def defaultExcludes : List String :=
  ["node_modules", "bower_components", "jspm_packages"]

/-- The name of a description whose project has untyped sources. -/
def untypedConfigName : String := "jsconfig.json"

/-- The name of a description whose project has typed sources. -/
def typedConfigName : String := "tsconfig.json"

/-- Whether a name ends with one of the endings. -/
def hasExtension (extensions : List String) (name : String) : Bool :=
  extensions.any fun extension => extension.toList.isSuffixOf name.toList

/-- Whether an excluded directory stands between a base and a location below
it. -/
def liesInExcludedDirectory (base location : Location) : Bool :=
  match location.relativeTo? base with
  | some names => names.dropLast.any (· ∈ excludedDirectories)
  | none => false

/-- Whether a location is not selected by include patterns. -/
def isExcluded (root : Location) (excluded : List DeclaredPattern)
    (location : Location) : Bool :=
  liesInExcludedDirectory root location ||
    excluded.any fun declared =>
      Pattern.excludes declared.directory declared.pattern.asExclude location

/-- The include patterns of a description.  Without any, and without a list of
files, everything below its directory is included. -/
def includePatterns (root : Location) (config : Config) : List DeclaredPattern :=
  config.included.getD
    (if config.files.isSome then [] else [⟨root, "**/*"⟩])

/-- The exclude patterns of a description.  Without any, packages and the
output directory are excluded. -/
def excludePatterns (root : Location) (config : Config) : List DeclaredPattern :=
  config.excluded.getD
    (defaultExcludes.map (fun pattern => ⟨root, pattern⟩) ++
      (config.options.outDir.map fun directory =>
        (⟨directory, "."⟩ : DeclaredPattern)).toList)

/-- The listed files that are sources. -/
def listedModules (store : Store) (extensions : List String) (config : Config) :
    List Location :=
  (config.files.getD []).filter fun location =>
    store.isFile location && hasExtension extensions location.name

/-- The sources that one include pattern selects. -/
def patternModules (store : Store) (extensions : List String) (root : Location)
    (excluded : List DeclaredPattern) (declared : DeclaredPattern) :
    Except Failure (List Location) := do
  let denoted ← Pattern.expand store declared.directory
    declared.pattern.asInclude
  return denoted.filter fun location =>
    hasExtension extensions location.name && store.isFile location &&
      !isExcluded root excluded location

/-- The modules that a description selects. -/
def collectModules (store : Store) (extensions : List String) (root : Location)
    (config : Config) : Except Failure (OrderedSet Location) := do
  (config.files.getD []).forM fun location => store.query location.path
  let excluded := excludePatterns root config
  let selected ← (includePatterns root config).mapM
    (patternModules store extensions root excluded)
  return .ofList (listedModules store extensions config ++ selected.flatten)

/-- The project of a description. -/
def ofConfig (store : Store) (location : Location) (config : Config) :
    Except Failure Project := do
  let root := location.parent
  let allowJs :=
    config.options.allowJs.getD false || location.name = untypedConfigName
  let extensions :=
    if allowJs then typedExtensions ++ untypedExtensions else typedExtensions
  let modules ← collectModules store extensions root config
  return {
    config := location
    modules := modules
    allowJs := allowJs
    baseUrl := config.options.baseUrl
    paths := config.options.paths.getD []
    pathsBase := (config.options.pathsBase.orElse fun _ =>
      config.options.baseUrl).getD root }

/-- Load the project that a file describes. -/
def load (store : Store) (location : Location) : Except ConfigError Project := do
  let config ← Config.read store location
  (ofConfig store location config).mapError .stop

/-- The directory of a project. -/
def root (project : Project) : Location := project.config.parent

/-- The locations below a base with a given name, none of them inside an
excluded directory. -/
def configsNamed (store : Store) (base : Location) (name : String) :
    List Location :=
  (store.entries.map (·.1)).filter fun location =>
    location ≠ base && (location.relativeTo? base).isSome &&
      location.name = name && !liesInExcludedDirectory base location

/-- The project descriptions below a directory.  Where both kinds stand in one
directory, the one with typed sources counts. -/
def discover (store : Store) (base : Location) : List Location :=
  let typed := configsNamed store base typedConfigName
  let untyped := (configsNamed store base untypedConfigName).filter
    fun location => !typed.any fun other => other.parent = location.parent
  (OrderedSet.ofList (typed ++ untyped)).elements

/-- Search a directory for project descriptions. -/
def search (store : Store) (base : Location) :
    Except Failure (List Location) := do
  store.query base.path
  return discover store base

end Project

end ExportAudit
