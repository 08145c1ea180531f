import ExportAudit.Proofs.Analysis.Halting
import ExportAudit.Proofs.Pattern.Wide
import ExportAudit.Proofs.Project.Selection

/-!
# One module set for each description

A description selects a set of modules in ascending order.  Neither the order in
which it lists files and patterns nor their repetition counts.  More files and
include patterns select no fewer modules, and more exclude patterns remove no
listed file and select no others.
-/

namespace ExportAudit

/-- Nothing about a pattern stops its expansion. -/
def DeclaredPattern.IsValid (store : Store) (declared : DeclaredPattern) : Prop :=
  ¬ Pattern.Stops store (Pattern.anchor declared.directory declared.pattern.asInclude)

namespace Project

/-- The name of a location ends with one of some endings. -/
def HasEnding (extensions : List String) (location : Location) : Prop :=
  ∃ ending ∈ extensions, ending.toList <:+ location.name.toList

/-- Every entry of one list is an entry of another, whatever their order and
number.  An absent list is within an absent one only. -/
def ListsWithin {α : Type} (narrower wider : Option (List α)) : Prop :=
  narrower.isSome = wider.isSome ∧
    ∀ entry ∈ narrower.getD [], entry ∈ wider.getD []

/-- One description lists no files and include patterns besides those of another,
and all of the other's exclude patterns. -/
structure SelectsWithin (narrower wider : Config) : Prop where
  files : ListsWithin narrower.files wider.files
  included : ListsWithin narrower.included wider.included
  excluded : ListsWithin wider.excluded narrower.excluded
  outDir : narrower.options.outDir = wider.options.outDir

/-- The listed files can be asked for and the include patterns are valid. -/
structure IsCollectable (store : Store) (root : Location) (config : Config) :
    Prop where
  files : ∀ file ∈ config.files.getD [], ¬ Fails (store.query file.path)
  patterns : ∀ declared ∈ includePatterns root config, declared.IsValid store

theorem hasExtension_iff {extensions : List String} {location : Location} :
    hasExtension extensions location.name = true ↔
      HasEnding extensions location := by
  simp [hasExtension, HasEnding]

/-- Lists within each other have the same default. -/
theorem ListsWithin.mem_getD {α : Type} {narrower wider : Option (List α)}
    {default : List α} {entry : α} (within : ListsWithin narrower wider)
    (member : entry ∈ narrower.getD default) : entry ∈ wider.getD default := by
  obtain ⟨present, entries⟩ := within
  cases narrower with
  | none =>
      rw [Option.isSome_none, eq_comm, Option.isSome_eq_false_iff,
        Option.isNone_iff_eq_none] at present
      rwa [present]
  | some list =>
      rw [Option.isSome_some, eq_comm, Option.isSome_iff_exists] at present
      obtain ⟨others, rfl⟩ := present
      exact entries entry member

section Collecting

variable {store : Store} {extensions : List String} {root module : Location}
  {config narrower wider : Config} {declared : DeclaredPattern}

theorem exists_collected_iff :
    (∃ modules, collectModules store extensions root config = .ok modules) ↔
      IsCollectable store root config := by
  rw [exists_ok_iff, fails_collectModules, not_or]
  constructor
  · intro known
    refine ⟨fun file listed long => known.1 ⟨file, listed, long⟩, ?_⟩
    exact fun declared listed stops => known.2 ⟨declared, listed, stops⟩
  · intro collectable
    constructor
    · intro long
      obtain ⟨file, listed, long⟩ := long
      exact collectable.files file listed long
    · intro stopped
      obtain ⟨declared, listed, stops⟩ := stopped
      exact collectable.patterns declared listed stops

namespace SelectsWithin

variable (within : SelectsWithin narrower wider)

include within

theorem mem_includePatterns
    (listed : declared ∈ includePatterns root narrower) :
    declared ∈ includePatterns root wider := by
  unfold includePatterns at listed ⊢
  rw [within.files.1] at listed
  exact within.included.mem_getD listed

theorem mem_excludePatterns
    (listed : declared ∈ excludePatterns root wider) :
    declared ∈ excludePatterns root narrower := by
  unfold excludePatterns at listed ⊢
  rw [within.outDir]
  exact within.excluded.mem_getD listed

theorem isCollectable (collectable : IsCollectable store root wider) :
    IsCollectable store root narrower where
  files file listed := collectable.files file (within.files.2 file listed)
  patterns declared listed :=
    collectable.patterns declared (within.mem_includePatterns listed)

theorem selectedBy
    (selected : SelectedBy store extensions root narrower declared module) :
    SelectedBy store extensions root wider declared module := by
  obtain ⟨candidate, searched⟩ := selectedBy_iff.mp selected
  refine selectedBy_iff.mpr ⟨⟨candidate.denoted, candidate.isSource,
    candidate.isFile, ?_⟩, searched⟩
  intro other listed
  exact candidate.kept other (within.mem_excludePatterns listed)

/-- What the narrower description selects, the wider one selects. -/
theorem mem_collected {modules fewer : OrderedSet Location}
    (collected : collectModules store extensions root wider = .ok modules)
    (narrowed : collectModules store extensions root narrower = .ok fewer)
    (member : module ∈ fewer) : module ∈ modules := by
  rw [mem_collectModules narrowed] at member
  rw [mem_collectModules collected]
  obtain listed | ⟨declared, listed, selected⟩ := member
  · left
    obtain ⟨entry, kept⟩ := List.mem_filter.mp listed
    exact List.mem_filter.mpr ⟨within.files.2 module entry, kept⟩
  · exact .inr ⟨declared, within.mem_includePatterns listed,
      within.selectedBy selected⟩

end SelectsWithin

theorem mem_listedModules :
    module ∈ listedModules store extensions config ↔
      module ∈ config.files.getD [] ∧ store.isFile module = true ∧
        HasEnding extensions module := by
  rw [listedModules, List.mem_filter, Bool.and_eq_true, hasExtension_iff]

/-- The modules that a description selects are sources. -/
theorem hasEnding_of_mem_collectModules {modules : OrderedSet Location}
    (collected : collectModules store extensions root config = .ok modules)
    (member : module ∈ modules) : HasEnding extensions module := by
  obtain listed | ⟨declared, _, selected⟩ :=
    (mem_collectModules collected).mp member
  · exact (mem_listedModules.mp listed).2.2
  · exact hasExtension_iff.mp (selectedBy_iff.mp selected).1.isSource

end Collecting

/-- Modules are collected just if the listed files can be asked for and the
include patterns are valid.  They are sources in ascending order, each once, the
listed files that exist among them whatever is excluded.  A description that
lists less or excludes more has no others, and one with the same entries has the
same. -/
theorem collectModules_canonical (store : Store) (extensions : List String)
    (root : Location) (config : Config) :
    ((∃ modules, collectModules store extensions root config = .ok modules) ↔
      IsCollectable store root config) ∧
    ∀ modules, collectModules store extensions root config = .ok modules →
      modules.elements.Pairwise (· < ·) ∧
      (∀ module ∈ modules, store.isFile module = true ∧
        HasEnding extensions module) ∧
      (∀ file ∈ config.files.getD [], store.isFile file = true →
        HasEnding extensions file → file ∈ modules) ∧
      ∀ narrower, SelectsWithin narrower config →
        ∃ fewer, collectModules store extensions root narrower = .ok fewer ∧
          (∀ module ∈ fewer, module ∈ modules) ∧
          (SelectsWithin config narrower → fewer = modules) := by
  refine ⟨exists_collected_iff, fun modules collected => ?_⟩
  refine ⟨modules.ascending, ?_, ?_, ?_⟩
  · intro module member
    exact ⟨isFile_of_mem_collectModules collected member,
      hasEnding_of_mem_collectModules collected member⟩
  · intro file listed isFile ending
    rw [mem_collectModules collected]
    exact .inl (mem_listedModules.mpr ⟨listed, isFile, ending⟩)
  · intro narrower within
    have collectable := exists_collected_iff.mp ⟨modules, collected⟩
    obtain ⟨fewer, narrowed⟩ :=
      (@exists_collected_iff _ extensions root narrower).mpr
        (within.isCollectable collectable)
    refine ⟨fewer, narrowed, ?_, ?_⟩
    · intro module member
      exact within.mem_collected collected narrowed member
    · intro back
      refine OrderedSet.ext fun module => ⟨?_, ?_⟩
      · exact within.mem_collected collected narrowed
      · exact back.mem_collected narrowed collected

/-- Two sources beside each other. -/
def twoSources : Store :=
  (Store.empty.write ⟨["src", "a.ts"]⟩ (.ofTree [] default)).write ⟨["src", "b.ts"]⟩
    (.ofTree [] default)

/-- A description that lists files, includes a directory and excludes what is
given. -/
def includingSources (files : List Location) (excluded : List String) : Config where
  options := .empty
  files := some files
  included := some [⟨.root, "src"⟩]
  excluded := some (excluded.map fun pattern => ⟨.root, pattern⟩)

theorem isCollectable_includingSources :
    IsCollectable twoSources .root
      (includingSources [⟨["src", "b.ts"]⟩] ["src/b.ts"]) := by
  constructor
  · intro file listed
    cases List.mem_singleton.mp listed
    have asked : twoSources.query (Location.path ⟨["src", "b.ts"]⟩) = .ok () := by
      decide
    rw [asked]
    exact not_failsBy_ok _ _
  · intro declared listed stops
    cases List.mem_singleton.mp listed
    simp only [WideText.asInclude_ofString] at stops
    cases stops with
    | rooted slash => revert slash; decide
    | misplaced misplaced => cases misplaced.hasWildcard
    | tooLongName wild => cases wild
    | tooLong _ _ _ long =>
        have asked : twoSources.query
            (Pattern.anchor .root "src").target = .ok () := by decide
        rw [asked] at long
        exact not_failsBy_ok _ _ long

/-- A listed file is a module although it is excluded.  To list it twice changes
nothing, and to exclude more adds no module. -/
theorem collectModules_includingSources :
    ∃ modules, collectModules twoSources typedExtensions .root
        (includingSources [⟨["src", "b.ts"]⟩] ["src/b.ts"]) = .ok modules ∧
      ⟨["src", "b.ts"]⟩ ∈ modules ∧
      collectModules twoSources typedExtensions .root
        (includingSources [⟨["src", "b.ts"]⟩, ⟨["src", "b.ts"]⟩] ["src/b.ts"]) =
          .ok modules ∧
      ∃ fewer, collectModules twoSources typedExtensions .root
          (includingSources [⟨["src", "b.ts"]⟩] ["src/b.ts", "src"]) =
            .ok fewer ∧
        ∀ module ∈ fewer, module ∈ modules := by
  obtain ⟨returns, canonical⟩ := collectModules_canonical twoSources
    typedExtensions .root (includingSources [⟨["src", "b.ts"]⟩] ["src/b.ts"])
  obtain ⟨modules, collected⟩ := returns.mpr isCollectable_includingSources
  obtain ⟨_, _, listed, changed⟩ := canonical modules collected
  have repeats : SelectsWithin
      (includingSources [⟨["src", "b.ts"]⟩, ⟨["src", "b.ts"]⟩] ["src/b.ts"])
      (includingSources [⟨["src", "b.ts"]⟩] ["src/b.ts"]) :=
    ⟨⟨rfl, by decide⟩, ⟨rfl, by decide⟩, ⟨rfl, by decide⟩, rfl⟩
  have repeated : SelectsWithin
      (includingSources [⟨["src", "b.ts"]⟩] ["src/b.ts"])
      (includingSources [⟨["src", "b.ts"]⟩, ⟨["src", "b.ts"]⟩] ["src/b.ts"]) :=
    ⟨⟨rfl, by decide⟩, ⟨rfl, by decide⟩, ⟨rfl, by decide⟩, rfl⟩
  have excludes : SelectsWithin
      (includingSources [⟨["src", "b.ts"]⟩] ["src/b.ts", "src"])
      (includingSources [⟨["src", "b.ts"]⟩] ["src/b.ts"]) :=
    ⟨⟨rfl, by decide⟩, ⟨rfl, by decide⟩, ⟨rfl, by decide⟩, rfl⟩
  obtain ⟨_, same, _, equal⟩ := changed _ repeats
  obtain ⟨fewer, narrowed, inside, _⟩ := changed _ excludes
  refine ⟨modules, collected, ?_, ?_, fewer, narrowed, inside⟩
  · exact listed _ (List.mem_singleton_self _) (by decide)
      (hasExtension_iff.mp (by decide))
  · rw [same, equal repeated]

end Project

end ExportAudit
