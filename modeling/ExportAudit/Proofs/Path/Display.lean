import ExportAudit.Proofs.Path.Names
import ExportAudit.Proofs.Pattern.Directory
import ExportAudit.Settings

/-!
# Paths as they are shown

A path is shown relative to a directory if the names of the directory begin its
names, and as a whole otherwise.  Read at the directory, what is shown leads
back to the path, so different paths are shown differently.
-/

namespace ExportAudit

open Pattern (joined properParts)

namespace Path

/-- All names of a path can stand between slashes. -/
def IsProper (path : Path) : Prop := ∀ name ∈ path.names, IsProperName name

instance (path : Path) : Decidable path.IsProper :=
  inferInstanceAs (Decidable (∀ name ∈ path.names, IsProperName name))

variable {path other : Path} {names : List String}

/-! ## Names in a text -/

theorem splitNames_of_properParts {text : String}
    (parts : properParts text.toList = names.map String.toList) :
    splitNames text = names := by
  rw [← String.ofList_toList (s := text), Pattern.splitNames_ofList, parts,
    map_ofList_toList]

theorem properParts_joinNames (proper : ∀ name ∈ names, IsProperName name) :
    properParts (joinNames names).toList = names.map String.toList := by
  rw [toList_joinNames, properParts_names proper]

/-- Joined names do not start with a slash. -/
theorem head?_joinNames (proper : ∀ name ∈ names, IsProperName name) :
    (joinNames names).toList.head? ≠ some '/' := by
  rw [toList_joinNames]
  cases names with
  | nil => nofun
  | cons name rest =>
      obtain ⟨nonempty, _, noSlash⟩ := proper name (List.mem_cons_self ..)
      have start : (joined ((name :: rest).map String.toList)).head? =
          name.toList.head? := by
        rw [List.map_cons]
        by_cases last : rest.map String.toList = []
        · rw [last, Pattern.joined_singleton]
        · rw [Pattern.joined_cons _ last]
          apply List.head?_append_of_ne_nil
          rwa [ne_eq, String.toList_eq_nil_iff]
      rw [start]
      intro slash
      exact noSlash (List.mem_of_mem_head? slash)

/-! ## Whole paths -/

theorem ofText?_text (proper : path.IsProper) :
    PathRoot.ofText? path.text.toList = some path.root := by
  have start := head?_joinNames proper
  rw [text, String.toList_append]
  -- What follows the slashes of the root is no slash.
  cases path.root <;> cases following : (joinNames path.names).toList with
  | nil => rfl
  | cons first rest =>
      rw [following, List.head?_cons, ne_eq, Option.some.injEq] at start
      simp [PathRoot.text, PathRoot.ofText?, start]

/-- A path is read back from its own text at every directory. -/
theorem join_text (proper : path.IsProper) (base : Path) :
    base.join path.text = path := by
  have absolute := ofText?_text proper
  have parts : properParts path.text.toList = path.names.map String.toList := by
    rw [← Pattern.properParts_drop_root absolute, text, String.toList_append,
      ← String.length_toList, List.drop_left, properParts_joinNames proper]
  rw [join, absolute]
  dsimp only
  rw [splitNames_of_properParts parts]

/-! ## Relative paths -/

theorem ofText?_relativeText (proper : ∀ name ∈ names, IsProperName name) :
    PathRoot.ofText? (relativeText names).toList = none := by
  rw [relativeText]
  split
  · rfl
  · exact Pattern.ofText?_of_relative (head?_joinNames proper)

/-- A relative path leads from a directory on by its names. -/
theorem join_relativeText (proper : ∀ name ∈ names, IsProperName name)
    (base : Path) :
    base.join (relativeText names) =
      { base with names := base.names ++ names } := by
  have split : splitNames (relativeText names) = names := by
    cases names with
    | nil => rfl
    | cons name rest =>
        rw [relativeText, List.isEmpty_cons, if_neg Bool.false_ne_true]
        exact splitNames_of_properParts (properParts_joinNames proper)
  rw [join, ofText?_relativeText proper]
  dsimp only
  rw [split]

theorem relativeTo?_eq_some {base : Location} :
    path.relativeTo? base.path = some names ↔
      path = ⟨.single, base.names ++ names⟩ := by
  cases path with
  | mk root given =>
      rw [relativeTo?, mk.injEq]
      cases root with
      | single =>
          have sameRoot : PathRoot.single = base.path.root := rfl
          rw [if_pos sameRoot, List.isPrefixOf?_eq_some_iff_append_eq]
          simp [Location.path, eq_comm]
      | double => simp [Location.path]

/-! ## What is shown -/

variable {base : Location}

/-- What lies at or below the directory, name by name, is shown relative to it,
and everything else as a whole. -/
theorem display_cases (path : Path) (base : Location) :
    (∃ names, path = ⟨.single, base.names ++ names⟩ ∧
      path.display base = relativeText names) ∨
    (∀ names, path ≠ ⟨.single, base.names ++ names⟩) ∧
      path.display base = path.text := by
  rw [display]
  cases relative : path.relativeTo? base.path with
  | some names => exact .inl ⟨names, relativeTo?_eq_some.mp relative, rfl⟩
  | none =>
      right
      constructor
      · intro names inside
        rw [relativeTo?_eq_some.mpr inside] at relative
        cases relative
      · rfl

/-- The names of a path below a directory can stand between slashes. -/
theorem IsProper.below (proper : path.IsProper)
    (inside : path = ⟨.single, base.names ++ names⟩) :
    ∀ name ∈ names, IsProperName name := by
  intro name member
  apply proper name
  rw [inside]
  exact List.mem_append_right _ member

/-- Read at the directory, what is shown leads back to the path. -/
theorem join_display (proper : path.IsProper) (base : Location) :
    base.path.join (path.display base) = path := by
  cases display_cases path base with
  | inl shown =>
      obtain ⟨names, inside, shown⟩ := shown
      rw [shown, join_relativeText (proper.below inside), inside]
      rfl
  | inr whole => rw [whole.2, join_text proper]

theorem display_inj (proper : path.IsProper) (otherProper : other.IsProper) :
    path.display base = other.display base ↔ path = other := by
  constructor
  · intro same
    rw [← join_display proper base, same, join_display otherProper base]
  · intro same
    rw [same]

/-- A path is shown as a relative path exactly if the names of the directory
begin its names. -/
theorem ofText?_display_eq_none (proper : path.IsProper) :
    PathRoot.ofText? (path.display base).toList = none ↔
      path.root = .single ∧ base.names <+: path.names := by
  cases display_cases path base with
  | inl shown =>
      obtain ⟨names, inside, shown⟩ := shown
      rw [shown, ofText?_relativeText (proper.below inside), inside]
      exact iff_of_true rfl ⟨rfl, List.prefix_append _ _⟩
  | inr whole =>
      rw [whole.2, ofText?_text proper]
      apply iff_of_false nofun
      rintro ⟨single, names, begins⟩
      apply whole.1 names
      rw [begins, ← single]

/-- What is shown of a path leads back to it from the directory.  Different
paths are therefore shown differently, and with them different modules and
project descriptions.  Whether a path is shown relative to the directory is
decided name by name. -/
theorem display_faithful (base : Location) (proper : path.IsProper)
    (otherProper : other.IsProper) :
    base.path.join (path.display base) = path ∧
      (path.display base = other.display base ↔ path = other) ∧
      (PathRoot.ofText? (path.display base).toList = none ↔
        path.root = .single ∧ base.names <+: path.names) ∧
      ∀ (settings : Settings) (left right : Location),
        left.path.IsProper → right.path.IsProper →
          (settings.displayPath left = settings.displayPath right ↔
            left = right) := by
  refine ⟨join_display proper base, display_inj proper otherProper,
    ofText?_display_eq_none proper, ?_⟩
  intro settings left right leftProper rightProper
  rw [Settings.displayPath, Settings.displayPath,
    display_inj leftProper rightProper]
  cases left
  cases right
  simp [Location.path]

/-- A file below the directory and one below a sibling whose name begins with
the name of the directory. -/
theorem display_faithful_sibling :
    let base : Location := ⟨["r", "src"]⟩
    let inside : Path := ⟨.single, ["r", "src", "a.ts"]⟩
    let beside : Path := ⟨.single, ["r", "src2", "a.ts"]⟩
    inside.IsProper ∧ beside.IsProper ∧
      inside.display base = "a.ts" ∧ beside.display base = "/r/src2/a.ts" ∧
      base.path.join (inside.display base) = inside ∧
      (inside.display base = beside.display base ↔ inside = beside) ∧
      (PathRoot.ofText? (inside.display base).toList = none ↔
        inside.root = .single ∧ base.names <+: inside.names) ∧
      ∀ (settings : Settings) (left right : Location),
        left.path.IsProper → right.path.IsProper →
          (settings.displayPath left = settings.displayPath right ↔
            left = right) := by
  intro base inside beside
  have insideProper : inside.IsProper := by decide
  have besideProper : beside.IsProper := by decide
  exact ⟨insideProper, besideProper, by decide, by decide,
    display_faithful base insideProper besideProper⟩

end Path

end ExportAudit
