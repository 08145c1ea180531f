import ExportAudit.Proofs.Store.Walking

/-!
# Which patterns cannot be expanded

Expanding a pattern fails exactly if the pattern stops the analysis.  What is
below a directory is always found: where a path without wildcards leads to a
directory, each of its names stands in the directory in which it is looked up.
-/

namespace ExportAudit.Pattern

/-! ## Names on the way to a directory -/

section OnTheWay

variable {store : Store} {location reached found next : Location}

theorem isDirectory_of_foldlM_step? {names : List String} {reached : Location}
    (followed : names.foldlM (step? store) location = some reached)
    (isDirectory : store.isDirectory reached = true) :
    store.isDirectory location = true := by
  cases names with
  | nil =>
      cases followed
      exact isDirectory
  | cons name others =>
      rw [List.foldlM_cons] at followed
      obtain ⟨next, stepped, _⟩ := Option.bind_eq_some_iff.mp followed
      exact (step?_eq_some.mp stepped).1

theorem mapM_literal? {text : List Char} (noOpening : '[' ∉ text) :
    (text.map Token.literal).mapM Token.literal? = some text := by
  induction text with
  | nil => rfl
  | cons character rest ih =>
      obtain ⟨here, later⟩ : '[' ≠ character ∧ '[' ∉ rest := by
        simpa using noOpening
      rw [List.map_cons, List.mapM_cons, ih later, Token.literal?,
        if_neg here.symm]
      rfl

/-- A component without wildcards stands for its own text. -/
theorem name?_of_plain {part : List Char} (plain : hasWildcard part = false) :
    (Component.entry (tokens part)).name? = some (String.ofList part) := by
  have noOpening : '[' ∉ part := by
    intro member
    rw [hasWildcard, List.any_eq_false] at plain
    exact plain '[' member rfl
  rw [Component.name?, tokens_of_plain plain, mapM_literal? noOpening,
    Option.map_some]

theorem eq_of_mem_select_plain {part : List Char}
    (plain : hasWildcard part = false)
    (selected : next ∈ select store [.entry (tokens part)] location) :
    next = location.child (String.ofList part) := by
  rw [select, List.mem_flatMap] at selected
  obtain ⟨reached, listed, same⟩ := selected
  obtain ⟨name, member, rfl⟩ := List.mem_map.mp listed
  have own := (accepts_plain plain).mp (List.mem_filter.mp member).2
  rw [← own, String.ofList_toList]
  simpa [select] using same

/-- What is looked up on the way to a directory stands there, and below the
directory nothing is looked up. -/
theorem contains_of_looksUp_plain {parts : List (List Char)}
    (plain : ∀ part ∈ parts, hasWildcard part = false)
    (followed : (parts.map String.ofList).foldlM (step? store) location =
      some reached)
    (isDirectory : store.isDirectory reached = true)
    (looksUp : LooksUp store (parts.map .named ++ [.deep, .entry [.anyText]])
      location found) :
    store.contains found = true := by
  induction parts generalizing location with
  | nil =>
      -- Neither `**` nor `*` stands for a name.
      cases looksUp with
      | first named => cases named
      | onward _ _ later =>
          cases later with
          | first named => cases named
          | onward _ _ none => cases none
  | cons part others ih =>
      obtain ⟨plainPart, plainOthers⟩ := List.forall_mem_cons.mp plain
      rw [List.map_cons, List.foldlM_cons] at followed
      obtain ⟨next, stepped, onward⟩ := Option.bind_eq_some_iff.mp followed
      have stands := isDirectory_of_foldlM_step? onward isDirectory
      have leads := (step?_eq_some.mp stepped).2
      rw [List.map_cons, List.cons_append] at looksUp
      by_cases up : part = ['.', '.']
      · rw [if_pos (ofList_eq_up.mpr up)] at leads
        rw [up] at looksUp
        cases looksUp with
        | first named => cases named
        | onward selected _ later =>
            rw [List.mem_singleton.mp selected] at later
            exact ih plainOthers (leads ▸ onward) later
      · rw [if_neg (mt ofList_eq_up.mp up)] at leads
        rw [named_of_plain plainPart up] at looksUp
        cases looksUp with
        | first named =>
            rw [name?_of_plain plainPart] at named
            cases named
            exact Store.contains_of_isDirectory (leads ▸ stands)
        | onward selected _ later =>
            rw [eq_of_mem_select_plain plainPart selected] at later
            exact ih plainOthers (leads ▸ onward) later

end OnTheWay

/-! ## What stops the expansion of each form of pattern -/

section Forms

variable {store : Store} {anchored : Anchored}

/-- Everything below a directory is found without looking up what is too
long. -/
theorem not_looksUpTooLong_below
    (relative : anchored.pattern.head? ≠ some '/')
    (plain : hasWildcard anchored.pattern = false)
    (leads : store.leadsToDirectory anchored.target = true) :
    ¬ LooksUpTooLong store anchored.directory.resolve
      (dropTrailingSlashes anchored.pattern ++ "/**/*".toList) := by
  intro tooLong
  obtain ⟨_, parts, read, found, looksUp, long⟩ := tooLong
  obtain ⟨reached, followed, isDirectory⟩ := (Option.any_eq_true _ _).mp leads
  rw [follow?_eq, target_names relative, List.foldlM_append] at followed
  obtain ⟨start, base, onward⟩ := Option.bind_eq_some_iff.mp followed
  have same : start = anchored.directory.resolve :=
    (Store.follow?_eq_some_iff.mp base).2
  rw [same, Anchored.names] at onward
  rw [eq_components_below read] at looksUp
  have contained := contains_of_looksUp_plain (plain_of_mem_properParts plain)
    onward isDirectory looksUp
  simp [Store.lookUp, contained] at long

theorem fails_expandPlain (nonempty : anchored.pattern ≠ [])
    (plain : hasWildcard anchored.pattern = false) :
    Fails (expandPlain store anchored) ↔
      anchored.pattern.head? = some '/' ∧
        store.leadsToDirectory anchored.target = true := by
  unfold expandPlain
  split
  · next leads =>
    have shape : dropTrailingSlashes anchored.pattern ++ "/**/*".toList =
        dropTrailingSlashes anchored.pattern ++ '/' :: "**/*".toList := rfl
    have slashes : (dropTrailingSlashes anchored.pattern ++
        "/**/*".toList).head? = some '/' ↔ anchored.pattern.head? = some '/' := by
      rw [shape, head?_dropTrailingSlashes_append nonempty]
    rw [fails_glob, slashes]
    simp only [leads, and_true, not_isMisplaced_below plain, false_or]
    constructor
    · rintro (slash | tooLong)
      · exact slash
      · by_contra relative
        exact not_looksUpTooLong_below relative plain leads tooLong
    · exact .inl
  · next notDirectory =>
    split <;> simp [notDirectory]

theorem not_stops_of_empty (empty : anchored.pattern = []) :
    ¬ Stops store anchored := by
  intro stops
  cases stops with
  | rooted slash => simp [empty] at slash
  | misplaced misplaced =>
      have wild := misplaced.hasWildcard
      simp [empty, hasWildcard] at wild
  | tooLongName wild => simp [empty, hasWildcard] at wild
  | tooLong nonempty => exact nonempty empty

theorem stops_iff_of_wild (wild : hasWildcard anchored.pattern = true) :
    Stops store anchored ↔
      anchored.pattern.head? = some '/' ∨ IsMisplaced anchored.pattern ∨
        LooksUpTooLong store anchored.directory.resolve anchored.pattern := by
  constructor
  · intro stops
    cases stops with
    | rooted slash => exact .inl slash
    | misplaced misplaced => exact .inr (.inl misplaced)
    | tooLongName _ long => exact .inr (.inr long)
    | tooLong _ plain => simp [wild] at plain
  · intro stops
    rcases stops with slash | misplaced | long
    · exact .rooted slash (.inl wild)
    · exact .misplaced misplaced
    · exact .tooLongName wild long

theorem stops_iff_of_plain (nonempty : anchored.pattern ≠ [])
    (plain : hasWildcard anchored.pattern = false) :
    Stops store anchored ↔
      (anchored.target.holdsNull = false ∧
        Fails (store.query anchored.target)) ∨
      (anchored.pattern.head? = some '/' ∧
        store.leadsToDirectory anchored.target = true) := by
  constructor
  · intro stops
    cases stops with
    | rooted slash followed =>
        have leads : store.leadsToDirectory anchored.target = true := by
          simpa [plain] using followed
        exact .inr ⟨slash, leads⟩
    | misplaced misplaced =>
        rw [misplaced.hasWildcard] at plain
        cases plain
    | tooLongName wild =>
        rw [wild] at plain
        cases plain
    | tooLong _ _ askable long => exact .inl ⟨askable, long⟩
  · intro stops
    rcases stops with ⟨askable, long⟩ | ⟨slash, leads⟩
    · exact .tooLong nonempty plain askable long
    · exact .rooted slash (.inr leads)

/-- A pattern without wildcards is asked for before it is followed. -/
theorem fails_asked_expandPlain (nonempty : anchored.pattern ≠ [])
    (plain : hasWildcard anchored.pattern = false) :
    Fails (if anchored.target.holdsNull then expandPlain store anchored
        else store.query anchored.target >>= fun _ =>
          expandPlain store anchored) ↔
      Stops store anchored := by
  have rest : Fails (expandPlain store anchored) ↔ _ :=
    fails_expandPlain nonempty plain
  rw [stops_iff_of_plain nonempty plain]
  cases null : anchored.target.holdsNull with
  | true => simp [rest]
  | false =>
      simp only [Bool.false_eq_true, if_false, true_and]
      rw [fails_bind_iff_or fun _ => rest]

end Forms

theorem fails_expand {store : Store} {directory : Location} {pattern : String} :
    Fails (expand store directory pattern) ↔
      Stops store (anchor directory pattern) := by
  generalize anchors : anchor directory pattern = anchored
  by_cases empty : anchored.pattern = []
  · rw [expand_of_empty anchors empty]
    exact iff_of_false (not_failsBy_ok _ _) (not_stops_of_empty empty)
  · cases wild : hasWildcard anchored.pattern with
    | true =>
        rw [expand_of_wild anchors empty wild, fails_glob, stops_iff_of_wild wild]
    | false =>
        rw [expand_of_plain anchors empty wild]
        exact fails_asked_expandPlain empty wild

end ExportAudit.Pattern
