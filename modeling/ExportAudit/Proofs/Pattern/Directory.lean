import ExportAudit.Proofs.Pattern.Failing

/-!
# Directories as patterns

A pattern without wildcards that leads to a directory denotes the files below it.
It is followed name by name as it is written.  So it leads nowhere if nothing is
left of it once a `./` or its root is dropped, if a slash is left in front, or if
a step up takes back a name at which no directory stands, even where the path
without its steps up and back is that of a directory.
-/

namespace ExportAudit.Pattern

/-- The location that a pattern without wildcards names. -/
def place (directory : Location) (pattern : String) : Location :=
  directory.resolve (String.ofList (Text.trim pattern.toList))

/-- A pattern without wildcards can be followed: something without a slash in
front is left of it, and each of its names is looked up in a directory. -/
structure IsFollowed (store : Store) (anchored : Anchored) : Prop where
  nonempty : anchored.pattern ≠ []
  relative : anchored.pattern.head? ≠ some '/'
  walkable : store.IsWalkable anchored.target.names

/-! ## Where a pattern is read -/

section Anchoring

variable {text : List Char} {root : PathRoot}

/-- An absolute text starts with the slashes of its root. -/
theorem properParts_drop_root (absolute : PathRoot.ofText? text = some root) :
    properParts (text.drop root.text.length) = properParts text := by
  unfold PathRoot.ofText? at absolute
  split at absolute
  · next rest =>
    cases absolute
    exact (properParts_append_cons [] ('/' :: '/' :: rest)).symm
  · next rest _ =>
    cases absolute
    have first := properParts_append_cons [] ('/' :: rest)
    have second := properParts_append_cons [] rest
    exact (first.trans second).symm
  · next rest _ _ =>
    cases absolute
    exact (properParts_append_cons [] rest).symm
  · cases absolute

theorem mem_trim {character : Char} (member : character ∈ Text.trim text) :
    character ∈ text := by
  rw [Text.trim, Text.trimEnd, List.mem_reverse] at member
  have inside := (List.dropWhile_suffix _).subset member
  exact (List.dropWhile_suffix _).subset (List.mem_reverse.mp inside)

variable {directory : Location} {pattern : String}

/-- What is left of a pattern are characters of the pattern. -/
theorem mem_anchor {character : Char}
    (member : character ∈ (anchor directory pattern).pattern) :
    character ∈ pattern.toList := by
  apply mem_trim
  unfold anchor at member
  dsimp only at member
  split at member
  · exact List.mem_of_mem_drop member
  · split at member
    · next shape =>
      rw [shape]
      exact List.mem_cons_of_mem _ (List.mem_cons_of_mem _ member)
    · exact member

theorem plain_anchor (plain : hasWildcard pattern.toList = false) :
    hasWildcard (anchor directory pattern).pattern = false := by
  rw [hasWildcard, List.any_eq_false] at plain ⊢
  exact fun character member => plain character (mem_anchor member)

theorem names_join_ofList {base : Path} :
    (base.join (String.ofList text)).names =
      match PathRoot.ofText? text with
      | some _ => (properParts text).map String.ofList
      | none => base.names ++ (properParts text).map String.ofList := by
  rw [Path.join, String.toList_ofList]
  cases PathRoot.ofText? text <;> simp [splitNames_ofList]

/-- The path that a pattern names ends with the names that are followed.  If no
slash is left in front, it has no others. -/
theorem exists_above (directory : Location) (pattern : String) :
    ∃ above, (directory.path.join
        (String.ofList (Text.trim pattern.toList))).names =
          above ++ (anchor directory pattern).target.names ∧
      ((anchor directory pattern).pattern.head? ≠ some '/' → above = []) := by
  unfold anchor
  dsimp only
  generalize Text.trim pattern.toList = text
  split
  · next root absolute =>
    refine ⟨[], ?_, fun _ => rfl⟩
    rw [Anchored.target, names_join_ofList, names_join_ofList, absolute]
    dsimp only
    rw [properParts_drop_root absolute]
    split <;> rfl
  · next relative =>
    split
    · next rest =>
      have parts : properParts ('.' :: '/' :: rest) = properParts rest :=
        properParts_append_cons ['.'] rest
      rw [Anchored.target, names_join_ofList, names_join_ofList, relative, parts]
      dsimp only
      split
      · next root absolute =>
        refine ⟨directory.names, rfl, fun noSlash => ?_⟩
        rw [ofText?_of_relative noSlash] at absolute
        cases absolute
      · exact ⟨[], rfl, fun _ => rfl⟩
    · exact ⟨[], rfl, fun _ => rfl⟩

/-- Where no slash is left in front, what is followed is what the pattern
names. -/
theorem resolve_target
    (relative : (anchor directory pattern).pattern.head? ≠ some '/') :
    (anchor directory pattern).target.resolve = place directory pattern := by
  obtain ⟨above, names, none⟩ := exists_above directory pattern
  rw [none relative, List.nil_append] at names
  rw [place, Location.resolve, Path.resolve, Path.resolve, names]

/-- More names in front leave no fewer names. -/
theorem length_collapse_le (above names : List String) :
    (Path.collapse names).length ≤ (Path.collapse (above ++ names)).length := by
  induction names using List.reverseRecOn with
  | nil => exact Nat.zero_le _
  | append_singleton others last ih =>
      rw [← List.append_assoc, Path.collapse_concat, Path.collapse_concat]
      split
      · simp only [List.length_dropLast]
        omega
      · simp only [List.length_append]
        omega

/-- Otherwise it leads to nothing below what the pattern names. -/
theorem eq_of_prefix_target
    (below : (place directory pattern).names <+:
      (anchor directory pattern).target.resolve.names) :
    place directory pattern = (anchor directory pattern).target.resolve := by
  obtain ⟨above, names, _⟩ := exists_above directory pattern
  have longer : (anchor directory pattern).target.resolve.names.length ≤
      (place directory pattern).names.length := by
    rw [place, Location.resolve, Path.resolve, Path.resolve, names]
    generalize (anchor directory pattern).target.names = followed
    exact length_collapse_le above followed
  generalize place directory pattern = named at below longer ⊢
  generalize (anchor directory pattern).target.resolve = reached at below longer ⊢
  exact congrArg Location.mk (below.eq_of_length_le longer)

end Anchoring

/-! ## Following names -/

section Following

variable {store : Store} {location found file : Location}
  {parts : List (List Char)} {rest : List Component}

/-- A step of a pattern without wildcards that is no step up. -/
theorem mem_select_entry {name : String} (some : rest ≠ [])
    (plain : hasWildcard name.toList = false) :
    found ∈ select store (.entry (tokens name.toList) :: rest) location ↔
      store.isDirectory (location.child name) = true ∧
        found ∈ select store rest (location.child name) := by
  have goesOn : rest.isEmpty = false :=
    Bool.eq_false_iff.mpr fun none => some (List.isEmpty_iff.mp none)
  rw [select, List.mem_flatMap]
  simp only [goesOn, Bool.false_or]
  constructor
  · intro known
    obtain ⟨reached, listed, selected⟩ := known
    obtain ⟨entry, member, rfl⟩ := List.mem_map.mp listed
    have same := (accepts_plain plain).mp (List.mem_filter.mp member).2
    rw [String.toList_injective same] at selected
    split at selected
    · next directory => exact ⟨directory, selected⟩
    · cases selected
  · intro known
    obtain ⟨directory, selected⟩ := known
    have listed := Store.mem_names_of_contains
      (Store.contains_of_isDirectory directory)
    refine ⟨location.child name, List.mem_map.mpr ⟨name,
      List.mem_filter.mpr ⟨listed, (accepts_plain plain).mpr rfl⟩, rfl⟩, ?_⟩
    rwa [if_pos directory]

/-- Names without wildcards select what is selected from where they lead. -/
theorem mem_select_named (tree : store.IsTree)
    (isDirectory : store.isDirectory location = true)
    (plain : ∀ part ∈ parts, hasWildcard part = false) (some : rest ≠ []) :
    found ∈ select store (parts.map .named ++ rest) location ↔
      ∃ reached,
        (parts.map String.ofList).foldlM (step? store) location = .some reached ∧
          store.isDirectory reached = true ∧
          found ∈ select store rest reached := by
  induction parts generalizing location with
  | nil =>
      simp [isDirectory]
  | cons part others ih =>
      obtain ⟨plainPart, plainOthers⟩ := List.forall_mem_cons.mp plain
      have more : others.map Component.named ++ rest ≠ [] :=
        fun none => some (List.append_eq_nil_iff.mp none).2
      rw [List.map_cons, List.map_cons, List.cons_append, List.foldlM_cons,
        step?, if_pos isDirectory]
      by_cases up : part = ['.', '.']
      · have parent := tree.isDirectory_parent
          (Store.contains_of_isDirectory isDirectory)
        rw [up]
        exact ih parent plainOthers
      · have named : Component.named part =
            .entry (tokens (String.ofList part).toList) := by
          rw [named_of_plain plainPart up, String.toList_ofList]
        rw [named, mem_select_entry more (by rwa [String.toList_ofList]),
          if_neg (mt ofList_eq_up.mp up)]
        constructor
        · intro known
          exact (ih known.1 plainOthers).mp known.2
        · intro known
          obtain ⟨reached, followed, directory, selected⟩ := known
          have next := isDirectory_of_foldlM_step? followed directory
          exact ⟨next, (ih next plainOthers).mpr
            ⟨reached, followed, directory, selected⟩⟩

/-- Everything below a directory is selected by what is below it. -/
theorem mem_select_below (tree : store.IsTree)
    (isFile : store.isFile file = true)
    (isDirectory : store.isDirectory location = true) :
    file ∈ select store [.deep, .entry [.anyText]] location ↔
      location.names <+: file.names := by
  constructor
  · intro selected
    obtain ⟨names, below, _⟩ := exists_leads isFile (by simp) isDirectory
      (List.append_nil file.names).symm selected
    exact ⟨names, below.symm⟩
  · intro below
    obtain ⟨names, way⟩ := below
    obtain none | ⟨others, last, rfl⟩ := List.eq_nil_or_concat names
    · rw [none, List.append_nil] at way
      have same : location = file := congrArg Location.mk way
      rw [same, Store.isDirectory_eq_false_of_isFile isFile] at isDirectory
      cases isDirectory
    · rw [List.concat_eq_append] at way
      have leads : Leads [.deep, .entry [.anyText]]
          ((others ++ [last]).map String.toList)
          (([] : List String).map String.toList) := by
        rw [List.map_append]
        exact .deep (by simp) (.entry (accepts_any _) .done)
      have selected := mem_select tree isFile
        (by rw [List.append_nil]; exact way.symm) leads
      rwa [way] at selected

end Following

/-! ## What a directory denotes -/

section Denoting

variable {store : Store} {anchored : Anchored}

/-- A pattern that can be followed denotes what is below where it leads. -/
theorem exists_expandPlain (tree : store.IsTree)
    (plain : hasWildcard anchored.pattern = false)
    (followed : IsFollowed store anchored)
    (named : store.isDirectory anchored.target.resolve = true) :
    ∃ denoted, expandPlain store anchored = .ok denoted ∧
      ∀ file, store.isFile file = true →
        (file ∈ denoted ↔ anchored.target.resolve.names <+: file.names) := by
  have leads : store.follow? anchored.target = some anchored.target.resolve :=
    Store.follow?_eq_some_iff.mpr ⟨followed.walkable, rfl⟩
  have directory : store.leadsToDirectory anchored.target = true := by
    rw [Store.leadsToDirectory, leads, Option.any_some, named]
  have goesThrough : ¬ Fails (expandPlain store anchored) := by
    rw [fails_expandPlain followed.nonempty plain]
    exact fun rooted => followed.relative rooted.1
  obtain ⟨denoted, read⟩ := exists_ok_iff.mpr goesThrough
  refine ⟨denoted, read, fun file isFile => ?_⟩
  -- The way to the target passes the directory at which the pattern is read.
  rw [follow?_eq, target_names followed.relative, List.foldlM_append] at leads
  obtain ⟨start, reached, onward⟩ := Option.bind_eq_some_iff.mp leads
  have base : start = anchored.directory.resolve :=
    (Store.follow?_eq_some_iff.mp reached).2
  rw [base, Anchored.names] at onward
  have isDirectory := isDirectory_of_foldlM_step? onward named
  rw [expandPlain, if_pos directory] at read
  rw [eq_of_glob_below isDirectory read, Anchored.belowNames,
    mem_select_named tree isDirectory (plain_of_mem_properParts plain) (by simp),
    onward]
  simp only [Option.some.injEq, exists_eq_left', named, true_and]
  exact mem_select_below tree isFile named

variable {directory : Location} {pattern : String}

/-- A pattern that cannot be followed denotes no file below the directory that it
names. -/
theorem not_below_of_expandPlain {denoted : List Location} {file : Location}
    (nonempty : (anchor directory pattern).pattern ≠ [])
    (plain : hasWildcard (anchor directory pattern).pattern = false)
    (named : store.isDirectory (place directory pattern) = true)
    (notFollowed : ¬ IsFollowed store (anchor directory pattern))
    (read : expandPlain store (anchor directory pattern) = .ok denoted)
    (member : file ∈ denoted) : ¬ (place directory pattern).names <+: file.names := by
  intro below
  have goesThrough : ¬ Fails (expandPlain store (anchor directory pattern)) :=
    exists_ok_iff.mp ⟨denoted, read⟩
  rw [fails_expandPlain nonempty plain, not_and] at goesThrough
  unfold expandPlain at read
  split at read
  · next isDirectory =>
    obtain ⟨reached, leads, _⟩ := (Option.any_eq_true _ _).mp isDirectory
    refine notFollowed ⟨nonempty, fun rooted => ?_,
      (Store.follow?_eq_some_iff.mp leads).1⟩
    exact goesThrough rooted isDirectory
  · split at read
    · next leadsToFile =>
      cases read
      obtain ⟨reached, leads, isFile⟩ := (Option.any_eq_true _ _).mp leadsToFile
      rw [List.mem_singleton.mp member] at below
      rw [(Store.follow?_eq_some_iff.mp leads).2, ← eq_of_prefix_target below]
        at isFile
      rw [Store.isDirectory_eq_false_of_isFile isFile] at named
      cases named
    · cases read
      cases member

/-- A pattern that names something can be followed from a directory if its steps
up stand in front, something is left of it and no slash is left in front. -/
theorem isFollowed_of_stepsUpFirst (tree : store.IsTree)
    (isDirectory : store.isDirectory directory = true)
    (nonempty : (anchor directory pattern).pattern ≠ [])
    (relative : (anchor directory pattern).pattern.head? ≠ some '/')
    (first : Store.StepsUpFirst (anchor directory pattern).names)
    (contained : store.contains (place directory pattern) = true) :
    IsFollowed store (anchor directory pattern) := by
  refine ⟨nonempty, relative, ?_⟩
  have base := @isDirectory_base _ _ pattern isDirectory
  have reached := resolve_target relative
  rw [← reached, Path.resolve, target_names relative] at contained
  rw [target_names relative]
  exact tree.isWalkable_of_contains base first contained

end Denoting

/-- A directory with a source below it, beside an empty one. -/
def siblingDirectories : Store :=
  (Store.empty.makeDirectory ⟨["app"]⟩).write ⟨["lib", "x", "a.ts"]⟩
    (.ofTree [] default)

end ExportAudit.Pattern
