import Mathlib.Data.List.TakeWhile
import ExportAudit.Pattern.Expansion
import ExportAudit.Proofs.Failure.Propagation
import ExportAudit.Proofs.Text.Parts

/-!
# Patterns that stop an analysis

A pattern stops an analysis for four reasons: it still starts with a slash where
wildcards are followed, one of its components holds `**` besides other text, a
component without wildcards beside others with them is looked up and its name or
path is too long, or the pattern has no wildcards at all and denotes a path that
is too long to be asked for.
-/

namespace ExportAudit.Pattern

/-! ## Components -/

theorem hasDoubleAsterisk_iff {text : List Char} :
    hasDoubleAsterisk text = true ↔ ['*', '*'] <:+: text := by
  fun_induction hasDoubleAsterisk text with
  | case1 rest =>
      simp only [true_iff]
      exact ⟨[], rest, rfl⟩
  | case2 first rest notDouble ih =>
      rw [ih, List.infix_cons_iff]
      constructor
      · exact .inr
      · rintro (begins | later)
        · obtain ⟨after, same⟩ := begins
          cases same
          exact absurd rfl (notDouble after rfl)
        · exact later
  | case3 =>
      simp

/-- A component of a pattern holds `**` besides other text. -/
def IsMisplaced (pattern : List Char) : Prop :=
  ∃ part ∈ pattern.splitOn '/', part ≠ ['*', '*'] ∧ ['*', '*'] <:+: part

theorem fails_ofText? {text : List Char} :
    Fails (Component.ofText? text) ↔
      text ≠ ['*', '*'] ∧ ['*', '*'] <:+: text := by
  unfold Component.ofText?
  split
  · next deep => simp [deep]
  · next notDeep =>
    split
    · next up =>
      subst up
      simp [← hasDoubleAsterisk_iff, hasDoubleAsterisk]
    · next notUp =>
      split
      · next double =>
        simpa [notDeep] using hasDoubleAsterisk_iff.mp double
      · next single =>
        simpa [notDeep, hasDoubleAsterisk_iff] using single

theorem fails_components {pattern : List Char} :
    Fails (components pattern) ↔ IsMisplaced pattern := by
  unfold components
  simp only [bind_pure_comp, failsBy_map, fails_mapM]
  constructor
  · rintro ⟨part, member, failed⟩
    exact ⟨part, (List.mem_filter.mp member).1, fails_ofText?.mp failed⟩
  · rintro ⟨part, member, notDeep, double⟩
    have length := double.length_le
    have kept : part ≠ [] ∧ part ≠ ['.'] := by
      constructor
      · rintro rfl
        simp at length
      · rintro rfl
        simp at length
    exact ⟨part, List.mem_filter.mpr ⟨member, by simpa using kept⟩,
      fails_ofText?.mpr ⟨notDeep, double⟩⟩

/-! ## Looking names up -/

section LookingUp

variable {store : Store} {parts : List Component} {directory found : Location}

/-- A location is looked up when components are followed from a directory: by
the first of them, if it has no wildcards, or by the others, from a directory to
which the first one leads. -/
inductive LooksUp (store : Store) :
    List Component → Location → Location → Prop where
  | first {component : Component} {rest : List Component} {directory : Location}
      {name : String} (named : component.name? = some name) :
      LooksUp store (component :: rest) directory (directory.child name)
  | onward {component : Component} {rest : List Component}
      {directory next found : Location}
      (selected : next ∈ select store [component] directory)
      (isDirectory : store.isDirectory next = true)
      (later : LooksUp store rest next found) :
      LooksUp store (component :: rest) directory found

theorem mem_lookUps :
    found ∈ lookUps store parts directory ↔
      LooksUp store parts directory found := by
  induction parts generalizing directory with
  | nil => exact iff_of_false List.not_mem_nil nofun
  | cons component rest ih =>
      simp only [lookUps, List.mem_append, List.mem_map, Option.mem_toList,
        List.mem_flatMap, List.mem_filter, ih]
      constructor
      · rintro (⟨name, named, rfl⟩ | ⟨next, ⟨selected, isDirectory⟩, later⟩)
        · exact .first named
        · exact .onward selected isDirectory later
      · intro looksUp
        cases looksUp with
        | first named => exact .inl ⟨_, named, rfl⟩
        | onward selected isDirectory later =>
            exact .inr ⟨_, ⟨selected, isDirectory⟩, later⟩

/-- What a pattern with wildcards looks up from a directory is too long to be
looked up. -/
def LooksUpTooLong (store : Store) (directory : Location)
    (pattern : List Char) : Prop :=
  store.isDirectory directory = true ∧
    ∃ parts, components pattern = .ok parts ∧
      ∃ found, LooksUp store parts directory found ∧ Fails (store.lookUp found)

end LookingUp

theorem fails_glob {store : Store} {directory : Path} {pattern : List Char} :
    Fails (glob store directory pattern) ↔
      pattern.head? = some '/' ∨ IsMisplaced pattern ∨
        LooksUpTooLong store directory.resolve pattern := by
  unfold glob LooksUpTooLong
  by_cases rooted : pattern.head? = some '/'
  · simp [rooted, throw, throwThe, MonadExceptOf.throw]
  · simp only [rooted, if_false, false_or]
    refine failsBy_bind.trans (or_congr fails_components ?_)
    by_cases isDirectory : store.isDirectory directory.resolve = true
    · simp only [isDirectory, if_true, true_and]
      refine exists_congr fun parts => and_congr_right fun _ => ?_
      rw [bind_pure_comp, failsBy_map]
      refine fails_forM.trans ?_
      exact exists_congr fun found => and_congr_left fun _ => mem_lookUps
    · simp [isDirectory]

/-! ## Directories in place of patterns -/

theorem dropTrailingSlashes_begins (text : List Char) :
    dropTrailingSlashes text <+: text := by
  have suffix := List.dropWhile_suffix (l := text.reverse) (· = '/')
  have reversed := List.reverse_prefix.mpr suffix
  rwa [List.reverse_reverse] at reversed

/-- Everything below a directory is asked for at a root exactly if the
directory is. -/
theorem head?_dropTrailingSlashes_append {text rest : List Char}
    (nonempty : text ≠ []) :
    (dropTrailingSlashes text ++ '/' :: rest).head? = some '/' ↔
      text.head? = some '/' := by
  cases body : dropTrailingSlashes text with
  | nil =>
      unfold dropTrailingSlashes at body
      rw [List.reverse_eq_nil_iff, List.dropWhile_eq_nil_iff] at body
      cases text with
      | nil => exact absurd rfl nonempty
      | cons head others =>
          have slash := body head (by simp)
          simpa using slash
  | cons head others =>
      obtain ⟨after, whole⟩ := dropTrailingSlashes_begins text
      rw [body] at whole
      rw [← whole]
      rfl

theorem hasWildcard_of_asterisk {text : List Char} (member : '*' ∈ text) :
    hasWildcard text = true := by
  unfold hasWildcard
  rw [List.any_eq_true]
  exact ⟨'*', member, rfl⟩

/-- Without wildcards in the path of a directory no `**` is misplaced in the
pattern for everything below it. -/
theorem not_isMisplaced_below {text : List Char}
    (plain : hasWildcard text = false) :
    ¬ IsMisplaced (dropTrailingSlashes text ++ "/**/*".toList) := by
  rintro ⟨part, listed, notDeep, double⟩
  have shape : dropTrailingSlashes text ++ "/**/*".toList =
      dropTrailingSlashes text ++ '/' :: (['*', '*'] ++ '/' :: ['*']) := rfl
  rw [shape, List.splitOn_append_cons_self, List.splitOn_append_cons_self]
    at listed
  simp only [List.mem_append] at listed
  rcases listed with own | deep | any
  · have asterisk : '*' ∈ part := double.subset (by simp)
    have inText : '*' ∈ text :=
      (dropTrailingSlashes_begins text).subset (Text.mem_of_mem_splitOn own asterisk)
    rw [hasWildcard_of_asterisk inText] at plain
    cases plain
  · rw [List.splitOn_eq_singleton (by decide), List.mem_singleton] at deep
    exact notDeep deep
  · rw [List.splitOn_eq_singleton (by decide), List.mem_singleton] at any
    have length := double.length_le
    simp [any] at length

/-! ## Expansion -/

/-- The path that an anchored pattern denotes if it has no wildcards. -/
def Anchored.target (anchored : Anchored) : Path :=
  anchored.directory.join (String.ofList anchored.pattern)

/-- Expanding a pattern stops the analysis. -/
inductive Stops (store : Store) (anchored : Anchored) : Prop where
  | rooted (slash : anchored.pattern.head? = some '/')
      (followed : hasWildcard anchored.pattern = true ∨
        store.leadsToDirectory anchored.target = true)
  | misplaced (misplaced : IsMisplaced anchored.pattern)
  | tooLongName (wild : hasWildcard anchored.pattern = true)
      (long : LooksUpTooLong store anchored.directory.resolve anchored.pattern)
  | tooLong (nonempty : anchored.pattern ≠ [])
      (plain : hasWildcard anchored.pattern = false)
      (askable : anchored.target.holdsNull = false)
      (long : Fails (store.query anchored.target))

theorem IsMisplaced.hasWildcard {pattern : List Char}
    (misplaced : IsMisplaced pattern) : hasWildcard pattern = true := by
  obtain ⟨part, listed, _, double⟩ := misplaced
  have asterisk : '*' ∈ part := double.subset (by simp)
  exact hasWildcard_of_asterisk (Text.mem_of_mem_splitOn listed asterisk)

/-- What a pattern without wildcards denotes, once its path has been asked
for. -/
def expandPlain (store : Store) (anchored : Anchored) :
    Except Failure (List Location) :=
  if store.leadsToDirectory anchored.target then
    glob store anchored.directory
      (dropTrailingSlashes anchored.pattern ++ "/**/*".toList)
  else if store.leadsToFile anchored.target then
    .ok [anchored.target.resolve]
  else .ok []

section Expanding

variable {store : Store} {directory : Location} {pattern : String}
  {anchored : Anchored}

theorem expand_of_empty (anchors : anchor directory pattern = anchored)
    (empty : anchored.pattern = []) : expand store directory pattern = .ok [] := by
  unfold expand
  rw [anchors]
  simp [empty, pure, Except.pure]

theorem expand_of_wild (anchors : anchor directory pattern = anchored)
    (nonempty : anchored.pattern ≠ [])
    (wild : hasWildcard anchored.pattern = true) :
    expand store directory pattern =
      glob store anchored.directory anchored.pattern := by
  unfold expand
  rw [anchors]
  simp [nonempty, wild]

theorem expand_of_plain (anchors : anchor directory pattern = anchored)
    (nonempty : anchored.pattern ≠ [])
    (plain : hasWildcard anchored.pattern = false) :
    expand store directory pattern =
      if anchored.target.holdsNull then expandPlain store anchored
      else store.query anchored.target >>= fun _ =>
        expandPlain store anchored := by
  have some : anchored.pattern.isEmpty = false :=
    Bool.eq_false_iff.mpr fun empty => nonempty (List.isEmpty_iff.mp empty)
  unfold expand
  rw [anchors]
  simp only [some, plain, Bool.false_eq_true, if_false]
  change _ = if (anchored.directory.join
    (String.ofList anchored.pattern)).holdsNull then _ else _
  cases (anchored.directory.join (String.ofList anchored.pattern)).holdsNull with
  | true => rfl
  | false => rfl

/-- What a pattern denotes depends on whether it is empty and has wildcards. -/
theorem eq_ok_of_expand {denoted : List Location}
    (anchors : anchor directory pattern = anchored)
    (expanded : expand store directory pattern = .ok denoted) :
    anchored.pattern = [] ∧ denoted = [] ∨
      hasWildcard anchored.pattern = true ∧
        glob store anchored.directory anchored.pattern = .ok denoted ∨
      hasWildcard anchored.pattern = false ∧
        expandPlain store anchored = .ok denoted := by
  by_cases empty : anchored.pattern = []
  · rw [expand_of_empty anchors empty] at expanded
    cases expanded
    exact .inl ⟨empty, rfl⟩
  · cases wild : hasWildcard anchored.pattern with
    | true =>
        rw [expand_of_wild anchors empty wild] at expanded
        exact .inr (.inl ⟨rfl, expanded⟩)
    | false =>
        rw [expand_of_plain anchors empty wild] at expanded
        refine .inr (.inr ⟨rfl, ?_⟩)
        split at expanded
        · exact expanded
        · obtain ⟨_, _, read⟩ := bind_eq_ok.mp expanded
          exact read

end Expanding

end ExportAudit.Pattern
