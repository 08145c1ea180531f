import ExportAudit.Proofs.Path.Names
import ExportAudit.Proofs.Pattern.Wide
import ExportAudit.Proofs.Project.AliasBase
import ExportAudit.Proofs.Project.Selection

/-!
# Directories that are not searched

An include pattern selects no module that an excluded directory holds below the
directory of the description.  Of a module elsewhere the way there is not looked
at.  A pattern selects modules elsewhere only if it is read elsewhere, starts
with a slash or has a step up.
-/

namespace ExportAudit

open Config Pattern

/-- A pattern is read at or below a directory, has no step up and starts with no
slash. -/
structure DeclaredPattern.StaysBelow (root : Location)
    (declared : DeclaredPattern) : Prop where
  base : root.names <+:
    (anchor declared.directory declared.pattern.asInclude).directory.resolve.names
  relative : (anchor declared.directory declared.pattern.asInclude).pattern.head? ≠ some '/'
  noUp : ['.', '.'] ∉
    properParts (anchor declared.directory declared.pattern.asInclude).pattern

namespace Pattern

section Staying

variable {store : Store} {module : Location} {denoted : List Location}

/-- The files that wildcards without steps up denote are below the directory at
which the pattern is read. -/
theorem prefix_of_mem_glob {directory : Path} {pattern : List Char}
    (noUp : ['.', '.'] ∉ properParts pattern)
    (isFile : store.isFile module = true)
    (read : glob store directory pattern = .ok denoted)
    (member : module ∈ denoted) : directory.resolve.names <+: module.names := by
  cases isDirectory : store.isDirectory directory.resolve with
  | true =>
      rw [eq_of_glob isDirectory read] at member
      obtain ⟨names, below, _⟩ := exists_leads isFile
        (up_not_mem_components noUp _) isDirectory
        (List.append_nil module.names).symm member
      exact ⟨names, below.symm⟩
  | false =>
      rw [eq_nil_of_glob isDirectory read] at member
      cases member

variable {anchored : Anchored}

/-- What a pattern without wildcards and steps up leads to is below the
directory at which it is read. -/
theorem prefix_target (relative : anchored.pattern.head? ≠ some '/')
    (noUp : ['.', '.'] ∉ properParts anchored.pattern) :
    anchored.directory.resolve.names <+: anchored.target.resolve.names := by
  rw [← properParts_dropTrailingSlashes] at noUp
  refine ⟨anchored.names, ?_⟩
  change Path.collapse anchored.base.names ++ _ =
    Path.collapse anchored.target.names
  rw [target_names relative]
  exact (collapse_append (noUp_of_parts noUp) _).symm

theorem prefix_of_mem_expandPlain
    (relative : anchored.pattern.head? ≠ some '/')
    (noUp : ['.', '.'] ∉ properParts anchored.pattern)
    (isFile : store.isFile module = true)
    (read : expandPlain store anchored = .ok denoted)
    (member : module ∈ denoted) :
    anchored.directory.resolve.names <+: module.names := by
  unfold expandPlain at read
  split at read
  · have parts : properParts (dropTrailingSlashes anchored.pattern ++
        "/**/*".toList) = properParts anchored.pattern ++ [['*', '*'], ['*']] := by
      rw [← properParts_dropTrailingSlashes anchored.pattern]
      exact properParts_append_cons _ "**/*".toList
    have noStep : ['.', '.'] ∉ properParts (dropTrailingSlashes
        anchored.pattern ++ "/**/*".toList) := by
      rw [parts]
      simpa using noUp
    exact prefix_of_mem_glob noStep isFile read member
  · split at read
    · cases read
      rw [List.mem_singleton.mp member]
      exact prefix_target relative noUp
    · cases read
      cases member

end Staying

end Pattern

/-- A pattern that stays below a directory denotes files below it. -/
theorem DeclaredPattern.StaysBelow.prefix_of_mem_expand {store : Store}
    {root module : Location} {declared : DeclaredPattern}
    {denoted : List Location} (stays : declared.StaysBelow root)
    (isFile : store.isFile module = true)
    (read : expand store declared.directory declared.pattern.asInclude =
      .ok denoted)
    (member : module ∈ denoted) : root.names <+: module.names := by
  apply stays.base.trans
  have relative := stays.relative
  have noUp := stays.noUp
  generalize anchors : anchor declared.directory declared.pattern.asInclude =
    anchored at relative noUp ⊢
  obtain ⟨_, none⟩ | ⟨_, read⟩ | ⟨_, read⟩ := eq_ok_of_expand anchors read
  · rw [none] at member
    cases member
  · exact prefix_of_mem_glob noUp isFile read member
  · exact prefix_of_mem_expandPlain relative noUp isFile read member

/-- The pattern that counts where a description has none stays below its
directory. -/
theorem DeclaredPattern.staysBelow_everything {root : Location}
    (noUp : ∀ name ∈ root.names, name ≠ "..") :
    (⟨root, "**/*"⟩ : DeclaredPattern).StaysBelow root := by
  have anchors : anchor root (WideText.asInclude "**/*") =
      ⟨root.path, "**/*".toList⟩ := by
    rw [WideText.asInclude_ofString]
    rfl
  constructor
  · rw [anchors]
    change root.names <+: Path.collapse root.names
    rw [collapse_eq noUp]
  · rw [anchors]
    change "**/*".toList.head? ≠ some '/'
    decide
  · rw [anchors]
    change ['.', '.'] ∉ properParts "**/*".toList
    decide

namespace Project

/-! ## Excluded directories -/

/-- The directories on the way to a location after the names that the way to a
base shares. -/
def between (base location : Location) : List String :=
  (location.names.drop
    (Path.sharedNames base.names location.names).length).dropLast

/-- An excluded directory stands between a base and a location. -/
def IsVendored (base location : Location) : Prop :=
  ∃ name ∈ between base location, name ∈ excludedDirectories

instance (base location : Location) : Decidable (IsVendored base location) :=
  inferInstanceAs (Decidable (∃ name ∈ between base location, _))

/-- Excluded directories are looked for on the way down only. -/
theorem liesInExcludedDirectory_iff {base location : Location} :
    liesInExcludedDirectory base location = true ↔
      base.names <+: location.names ∧ IsVendored base location := by
  unfold liesInExcludedDirectory
  cases relative : location.relativeTo? base with
  | none =>
      constructor
      · intro none
        cases none
      · intro known
        obtain ⟨names, split⟩ := known.1
        rw [Location.relativeTo?_eq_some.mpr split] at relative
        cases relative
  | some names =>
      have split := Location.relativeTo?_eq_some.mp relative
      have below : base.names <+: location.names := ⟨names, split⟩
      have onward : between base location = names.dropLast := by
        rw [between, Path.sharedNames_of_prefix below, ← split, List.drop_left]
      rw [IsVendored, onward]
      simp [below]

section Loading

variable {store : Store} {location : Location} {project : Project}

/-- The modules of a project are the listed files and those that include
patterns select.  A pattern selects the candidates for which no excluded
directory stands between the directory of the description and them, of those
elsewhere all.  A pattern that stays below that directory selects none
elsewhere. -/
theorem load_searched (loaded : load store location = .ok project) :
    ∃ config, Config.read store location = .ok config ∧
      (∀ module, module ∈ project.modules ↔
        module ∈ listedModules store project.extensions config ∨
          ∃ declared ∈ includePatterns location.parent config,
            SelectedBy store project.extensions location.parent config declared
              module) ∧
      ∀ declared module,
        (SelectedBy store project.extensions location.parent config declared
            module ↔
          IsCandidate store project.extensions location.parent config declared
              module ∧
            (location.parent.names <+: module.names →
              ¬ IsVendored location.parent module)) ∧
        (declared.StaysBelow location.parent →
          SelectedBy store project.extensions location.parent config declared
              module →
            location.parent.names <+: module.names ∧
              ¬ IsVendored location.parent module) := by
  obtain ⟨config, given, collected⟩ := exists_collected_of_load loaded
  refine ⟨config, given, fun _ => mem_collectModules collected, ?_⟩
  intro declared module
  have selects : SelectedBy store project.extensions location.parent config
      declared module ↔
        IsCandidate store project.extensions location.parent config declared
          module ∧ (location.parent.names <+: module.names →
            ¬ IsVendored location.parent module) := by
    rw [selectedBy_iff, ← Bool.not_eq_true, liesInExcludedDirectory_iff, not_and]
  refine ⟨selects, ?_⟩
  intro stays selected
  obtain ⟨candidate, searched⟩ := selects.mp selected
  obtain ⟨denoted, read, member⟩ := candidate.denoted
  have below := stays.prefix_of_mem_expand candidate.isFile read member
  exact ⟨below, searched below⟩

end Loading

/-! ## A module that another directory holds -/

/-- A description includes a file of an excluded directory beside its own. -/
def vendoredFile : Store :=
  (Store.empty.write ⟨["app", "a.json"]⟩ (.ofText
    "\x7b\"include\":[\"../vendor/b.ts\"]\x7d")).write
      ⟨["vendor", "b.ts"]⟩ (.ofTree [] default)

/-- The description. -/
def vendoredDeclaration : Declaration :=
  ⟨⟨["app", "a.json"]⟩, [("include", .array [.string "../vendor/b.ts"])],
    ⟨none, none, none, none⟩⟩

theorem postOrder_vendoredFile :
    PostOrder vendoredFile ⟨["app", "a.json"]⟩ [vendoredDeclaration] :=
  .node ⟨_, text?_ofText rfl, by cbv⟩ rfl rfl .nil

theorem expand_vendoredFile :
    expand vendoredFile ⟨["app"]⟩ (WideText.asInclude "../vendor/b.ts") =
      .ok [⟨["vendor", "b.ts"]⟩] := by
  rw [WideText.asInclude_ofString, expand_of_plain rfl (by decide) (by decide)]
  decide

/-- What the description comes to. -/
theorem read_vendoredFile {config : Config}
    (given : Config.read vendoredFile ⟨["app", "a.json"]⟩ = .ok config) :
    config.files = none ∧ config.options.outDir = none ∧
      includePatterns ⟨["app"]⟩ config = [⟨⟨["app"]⟩, "../vendor/b.ts"⟩] ∧
      excludePatterns ⟨["app"]⟩ config =
        defaultExcludes.map fun pattern => ⟨⟨["app"]⟩, pattern⟩ := by
  obtain ⟨post, ordered, describes⟩ :=
    exists_postOrder_of_readFrom vendoredFile [] _ config given
  cases ordered.unique postOrder_vendoredFile
  have merges := describes.merges
  have outDir : config.options.outDir = none := merges.outDir
  have included : config.included = some [⟨⟨["app"]⟩, "../vendor/b.ts"⟩] :=
    merges.included
  have excluded : config.excluded = none := merges.excluded
  refine ⟨merges.files, outDir, ?_, ?_⟩
  · rw [includePatterns, included]
    rfl
  · rw [excludePatterns, excluded, outDir]
    rfl

theorem exists_load_vendoredFile :
    ∃ project, load vendoredFile ⟨["app", "a.json"]⟩ = .ok project := by
  have located : ∀ declaration ∈ [vendoredDeclaration],
      declaration.IsLocated := by
    simp only [List.forall_mem_cons, Declaration.IsLocated]
    decide
  obtain ⟨config, given⟩ := postOrder_vendoredFile.exists_read_iff.mpr located
  obtain ⟨files, _, included, _⟩ := read_vendoredFile given
  have denoted : ¬ Fails (expand vendoredFile ⟨["app"]⟩
      (WideText.asInclude "../vendor/b.ts")) := by
    rw [expand_vendoredFile]
    exact not_failsBy_ok _ _
  have collected : ¬ Fails (ofConfig vendoredFile ⟨["app", "a.json"]⟩ config) := by
    rw [fails_ofConfig, files]
    change ¬ (_ ∨ ∃ declared ∈ includePatterns ⟨["app"]⟩ config, _)
    rw [included]
    simpa [fails_expand] using denoted
  obtain ⟨project, made⟩ := exists_ok_iff.mpr collected
  exact ⟨project, bind_eq_ok.mpr ⟨config, given, mapError_eq_ok.mpr made⟩⟩

/-- The file is a module, although an excluded directory holds it. -/
theorem load_searched_vendoredFile :
    IsVendored ⟨["app"]⟩ ⟨["vendor", "b.ts"]⟩ ∧
    ∃ project, load vendoredFile ⟨["app", "a.json"]⟩ = .ok project ∧
      ⟨["vendor", "b.ts"]⟩ ∈ project.modules := by
  refine ⟨by decide, ?_⟩
  obtain ⟨project, loaded⟩ := exists_load_vendoredFile
  obtain ⟨config, given, modules, selects⟩ := load_searched loaded
  obtain ⟨_, _, included, excluded⟩ := read_vendoredFile given
  refine ⟨project, loaded, (modules _).mpr (.inr
    ⟨⟨⟨["app"]⟩, "../vendor/b.ts"⟩, ?_, (selects _ _).1.mpr ?_⟩)⟩
  · change _ ∈ includePatterns ⟨["app"]⟩ config
    rw [included]
    exact List.mem_singleton_self _
  · have isSource : hasExtension project.extensions "b.ts" = true := by
      unfold extensions
      split <;> decide
    have kept : ∀ other ∈ excludePatterns ⟨["app"]⟩ config,
        excludes other.directory other.pattern.asExclude
          ⟨["vendor", "b.ts"]⟩ = false := by
      rw [excluded, List.forall_mem_map]
      simp only [WideText.asExclude_ofString]
      decide
    exact ⟨⟨⟨_, expand_vendoredFile, List.mem_singleton_self _⟩, isSource,
      by decide, kept⟩, by decide⟩

end Project

end ExportAudit
