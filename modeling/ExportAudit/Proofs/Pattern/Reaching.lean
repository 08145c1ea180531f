import ExportAudit.Proofs.Pattern.Following
import ExportAudit.Proofs.Pattern.Stopping

/-!
# What patterns reach

A pattern reaches the files that it denotes and those below the directories that
it denotes.  For a pattern whose parts are names or wildcards, these are the
files to which its components lead, without wildcards as with them.
-/

namespace ExportAudit.Pattern

/-- A file is among some locations or below a directory among them. -/
def Reaches (store : Store) (denoted : List Location) (file : Location) : Prop :=
  ∃ found ∈ denoted, found = file ∨
    store.isDirectory found = true ∧ (file.relativeTo? found).isSome = true

/-- The component of a text between slashes, `**` as a part of it apart. -/
def Component.named (part : List Char) : Component :=
  if part = ['*', '*'] then .deep
  else if part = ['.', '.'] then .up
  else .entry (tokens part)

/-- The texts between slashes, without empty ones and `.`. -/
def properParts (pattern : List Char) : List (List Char) :=
  (pattern.splitOn '/').filter fun part => part ≠ [] ∧ part ≠ ['.']

namespace Anchored

/-- The pattern without the slashes at its end. -/
def body (anchored : Anchored) : List Char :=
  dropTrailingSlashes anchored.pattern

/-- The texts between the slashes of a pattern. -/
def parts (anchored : Anchored) : List (List Char) :=
  anchored.body.splitOn '/'

/-- A pattern is the directory itself, or its parts are names or wildcards and
none of its bracket expressions holds a slash. -/
structure IsRegular (anchored : Anchored) : Prop where
  root : anchored.directory.root = .single
  parts : anchored.body = ['.'] ∨
    (∀ part ∈ anchored.parts, IsPart part) ∧
      tokens anchored.body = joinedTokens anchored.parts

/-- The directory at which a pattern is read. -/
def base (anchored : Anchored) : Location := ⟨anchored.directory.names⟩

/-- The components that a pattern is followed by.  Only a wildcard needs a
directory for a slash at the end. -/
def followed (anchored : Anchored) : List Component :=
  (properParts anchored.body).map .named ++
    if hasWildcard anchored.pattern ∧ anchored.pattern.getLast? = some '/' then
      [.here]
    else []

end Anchored

/-! ## The parts of a pattern -/

theorem exists_slashes (text : List Char) :
    ∃ count, text = dropTrailingSlashes text ++ List.replicate count '/' := by
  have slashes : ∀ character ∈ text.reverse.takeWhile (· = '/'),
      character = '/' := by
    intro character member
    simpa using List.mem_takeWhile_imp member
  refine ⟨(text.reverse.takeWhile (· = '/')).length, ?_⟩
  have ends : (text.reverse.takeWhile (· = '/')).reverse =
      List.replicate (text.reverse.takeWhile (· = '/')).length '/' :=
    List.eq_replicate_iff.mpr ⟨List.length_reverse, by simpa using slashes⟩
  rw [← ends, dropTrailingSlashes, ← List.reverse_append,
    List.takeWhile_append_dropWhile, List.reverse_reverse]

theorem properParts_append_cons (left right : List Char) :
    properParts (left ++ '/' :: right) = properParts left ++ properParts right := by
  rw [properParts, List.splitOn_append_cons_self, List.filter_append]
  rfl

theorem properParts_slashes (count : Nat) :
    properParts (List.replicate count '/') = [] := by
  induction count with
  | zero => rfl
  | succ count ih =>
      have step := properParts_append_cons [] (List.replicate count '/')
      rw [List.nil_append, ih] at step
      exact step

/-- Slashes at the end of a pattern add no parts. -/
theorem properParts_dropTrailingSlashes (text : List Char) :
    properParts (dropTrailingSlashes text) = properParts text := by
  obtain ⟨count, split⟩ := exists_slashes text
  cases count with
  | zero => rw [List.replicate_zero, List.append_nil] at split; rw [← split]
  | succ count =>
      rw [List.replicate_succ] at split
      conv_rhs => rw [split, properParts_append_cons, properParts_slashes,
        List.append_nil]

theorem eq_named_of_ofText? {part : List Char} {component : Component}
    (read : Component.ofText? part = .ok component) :
    component = .named part := by
  simp only [Component.ofText?] at read
  simp only [Component.named]
  by_cases deep : part = ['*', '*']
  · simp only [deep, if_true, Except.ok.injEq] at read ⊢
    exact read.symm
  · by_cases up : part = ['.', '.']
    · rw [if_neg deep, if_pos up] at read ⊢
      cases read
      rfl
    · rw [if_neg deep, if_neg up] at read ⊢
      split at read
      · cases read
      · cases read
        rfl

theorem eq_of_components {pattern : List Char} {found : List Component}
    (read : components pattern = .ok found) :
    found = (properParts pattern).map .named ++
      if pattern.getLast? = some '/' then [.here] else [] := by
  unfold components at read
  obtain ⟨named, mapped, made⟩ := bind_eq_ok.mp read
  have same := eq_map_of_mapM (fun _ _ => eq_named_of_ofText?) mapped
  cases made
  rw [same]
  split
  · rfl
  · rw [List.append_nil]
    rfl

/-- A pattern with wildcards denotes what its components select. -/
theorem exists_components_of_glob {store : Store} {directory : Path}
    {pattern : List Char} {denoted : List Location}
    (isDirectory : store.isDirectory directory.resolve = true)
    (read : glob store directory pattern = .ok denoted) :
    ∃ found, components pattern = .ok found ∧
      denoted = select store found directory.resolve := by
  by_cases rooted : pattern.head? = some '/'
  · simp only [glob, rooted, if_true] at read
    cases read
  · simp only [glob, rooted, if_false] at read
    obtain ⟨found, components, made⟩ := bind_eq_ok.mp read
    rw [if_pos isDirectory] at made
    obtain ⟨_, _, selected⟩ := bind_eq_ok.mp made
    cases selected
    exact ⟨found, components, rfl⟩

theorem eq_nil_of_glob {store : Store} {directory : Path} {pattern : List Char}
    {denoted : List Location}
    (notDirectory : store.isDirectory directory.resolve = false)
    (read : glob store directory pattern = .ok denoted) : denoted = [] := by
  by_cases rooted : pattern.head? = some '/'
  · simp only [glob, rooted, if_true] at read
    cases read
  · simp only [glob, rooted, if_false, notDirectory, Bool.false_eq_true] at read
    obtain ⟨_, _, made⟩ := bind_eq_ok.mp read
    cases made
    rfl

theorem eq_of_glob {store : Store} {directory : Path} {pattern : List Char}
    {denoted : List Location}
    (isDirectory : store.isDirectory directory.resolve = true)
    (read : glob store directory pattern = .ok denoted) :
    denoted = select store ((properParts pattern).map .named ++
      if pattern.getLast? = some '/' then [.here] else []) directory.resolve := by
  obtain ⟨found, made, rfl⟩ := exists_components_of_glob isDirectory read
  rw [eq_of_components made]

/-! ## Paths without steps up -/

/-- Names that are no steps up lead on from where the names before them lead. -/
theorem collapse_append {onward : List String}
    (noUp : ∀ name ∈ onward, name ≠ "..") (names : List String) :
    Path.collapse (names ++ onward) = Path.collapse names ++ onward := by
  induction onward using List.reverseRecOn with
  | nil => rw [List.append_nil, List.append_nil]
  | append_singleton others last ih =>
      have here : last ≠ ".." := noUp last (by simp)
      have before : ∀ name ∈ others, name ≠ ".." :=
        fun name member => noUp name (List.mem_append_left _ member)
      rw [← List.append_assoc, ← List.append_assoc, ← ih before]
      simp only [Path.collapse, List.foldl_append, List.foldl_cons, List.foldl_nil,
        if_neg here, List.reverse_cons]

theorem collapse_eq {names : List String} (noUp : ∀ name ∈ names, name ≠ "..") :
    Path.collapse names = names :=
  collapse_append noUp []

theorem up_not_mem_named {parts : List (List Char)}
    (noUp : ['.', '.'] ∉ parts) : .up ∉ parts.map Component.named := by
  intro member
  obtain ⟨part, listed, named⟩ := List.mem_map.mp member
  unfold Component.named at named
  split at named
  · cases named
  · split at named
    · next up => exact noUp (up ▸ listed)
    · cases named

/-- A slash at the end adds no step up. -/
theorem up_not_mem_components {parts : List (List Char)}
    (noUp : ['.', '.'] ∉ parts) (slash : Prop) [Decidable slash] :
    .up ∉ parts.map Component.named ++ if slash then [.here] else [] := by
  rw [List.mem_append]
  refine fun either => either.elim (up_not_mem_named noUp) ?_
  split <;> simp

/-- A text that starts with no slash is no absolute path. -/
theorem ofText?_of_relative {text : List Char}
    (relative : text.head? ≠ some '/') : PathRoot.ofText? text = none := by
  cases text with
  | nil => rfl
  | cons first rest =>
      have different : first ≠ '/' := fun same => relative (congrArg some same)
      simp [PathRoot.ofText?, different]

theorem ofList_eq_up {part : List Char} :
    String.ofList part = ".." ↔ part = ['.', '.'] :=
  @String.ofList_inj part ['.', '.']

/-- Parts without `..` are no steps up. -/
theorem noUp_of_parts {parts : List (List Char)} (noUp : ['.', '.'] ∉ parts) :
    ∀ name ∈ parts.map String.ofList, name ≠ ".." := by
  intro name member same
  obtain ⟨part, listed, rfl⟩ := List.mem_map.mp member
  exact noUp (ofList_eq_up.mp same ▸ listed)

section Following

variable {store : Store}

/-- One step on a path. -/
def step? (store : Store) (reached : Location) (name : String) :
    Option Location :=
  if store.isDirectory reached then
    some (if name = ".." then reached.parent else reached.child name)
  else none

theorem step?_eq_some {location next : Location} {name : String} :
    step? store location name = some next ↔
      store.isDirectory location = true ∧
        next = if name = ".." then location.parent else location.child name := by
  unfold step?
  split
  · next directory => simp [directory, eq_comm]
  · next notDirectory => simp [notDirectory]

theorem follow?_eq (path : Path) :
    store.follow? path = path.names.foldlM (step? store) .root := rfl

/-- A path without steps up leads to the location of its names. -/
theorem eq_of_foldlM_step? {names : List String} {start reached : Location}
    (noUp : ∀ name ∈ names, name ≠ "..")
    (followed : names.foldlM (step? store) start = some reached) :
    reached = ⟨start.names ++ names⟩ := by
  induction names generalizing start with
  | nil =>
      cases followed
      rw [List.append_nil]
  | cons name rest ih =>
      obtain ⟨here, later⟩ := List.forall_mem_cons.mp noUp
      rw [List.foldlM_cons] at followed
      obtain ⟨next, stepped, followed⟩ := Option.bind_eq_some_iff.mp followed
      have onward := (step?_eq_some.mp stepped).2
      rw [if_neg here] at onward
      rw [ih later followed, onward, Location.child, List.append_assoc,
        List.singleton_append]

/-- In a tree a path leads to what stands at its names. -/
theorem foldlM_step?_eq_some (tree : store.IsTree) {names : List String}
    {start : Location} (noUp : ∀ name ∈ names, name ≠ "..")
    (contained : store.contains ⟨start.names ++ names⟩ = true) :
    names.foldlM (step? store) start = some ⟨start.names ++ names⟩ := by
  induction names generalizing start with
  | nil =>
      rw [List.append_nil]
      rfl
  | cons name rest ih =>
      obtain ⟨here, later⟩ := List.forall_mem_cons.mp noUp
      have directory : store.isDirectory start = true :=
        tree.isDirectory_above contained (List.cons_ne_nil name rest)
      have onward : start.names ++ name :: rest =
          (start.child name).names ++ rest := by
        rw [Location.child, List.append_assoc, List.singleton_append]
      have stepped : step? store start name = some (start.child name) :=
        step?_eq_some.mpr ⟨directory, (if_neg here).symm⟩
      rw [List.foldlM_cons, stepped, onward]
      exact ih later (onward ▸ contained)

theorem isDirectory_of_leadsToDirectory {path : Path}
    (noUp : ∀ name ∈ path.names, name ≠ "..")
    (leads : store.leadsToDirectory path = true) :
    store.isDirectory ⟨path.names⟩ = true := by
  unfold Store.leadsToDirectory at leads
  cases followed : store.follow? path with
  | none =>
      rw [followed] at leads
      cases leads
  | some reached =>
      rw [followed, Option.any_some,
        eq_of_foldlM_step? noUp ((follow?_eq path).symm.trans followed)] at leads
      exact leads

/-- In a tree a path leads to a directory or to a file, if anything stands at
its names. -/
theorem leads_of_contains (tree : store.IsTree) {path : Path}
    (noUp : ∀ name ∈ path.names, name ≠ "..")
    (contained : store.contains ⟨path.names⟩ = true) :
    store.leadsToDirectory path = true ∨ store.leadsToFile path = true := by
  have followed : store.follow? path = some ⟨path.names⟩ :=
    foldlM_step?_eq_some tree noUp contained
  rw [Store.leadsToDirectory, Store.leadsToFile, followed]
  cases found : store.find? ⟨path.names⟩ with
  | none =>
      rw [Store.contains, found] at contained
      cases contained
  | some entry =>
      cases entry with
      | directory => exact .inl (by simp [Store.isDirectory, found])
      | file content => exact .inr (by simp [Store.isFile, Store.file?, found])

end Following

/-! ## Files reached -/

section Reaching

variable {store : Store} {file : Location}

theorem reaches_iff_below (tree : store.IsTree)
    (isFile : store.isFile file = true) {denoted : List Location} :
    Reaches store denoted file ↔
      ∃ found ∈ denoted, ∃ below, file.names = found.names ++ below := by
  constructor
  · intro reaches
    obtain ⟨found, member, same | ⟨_, relative⟩⟩ := reaches
    · exact ⟨found, member, [], by rw [same, List.append_nil]⟩
    · obtain ⟨below, known⟩ := Option.isSome_iff_exists.mp relative
      exact ⟨found, member, below,
        (Location.relativeTo?_eq_some.mp known).symm⟩
  · intro known
    obtain ⟨found, member, below, way⟩ := known
    refine ⟨found, member, ?_⟩
    by_cases none : below = []
    · rw [none, List.append_nil] at way
      exact .inl (congrArg Location.mk way.symm)
    · have contained : store.contains ⟨found.names ++ below⟩ = true :=
        way ▸ Store.contains_of_isFile isFile
      refine .inr ⟨tree.isDirectory_above contained none, ?_⟩
      rw [Location.relativeTo?_eq_some.mpr way.symm]
      rfl

/-- Components lead from a location to a file or to a directory above it. -/
def LeadsTo (components : List Component) (location file : Location) : Prop :=
  ∃ names below : List String,
    file.names = location.names ++ (names ++ below) ∧
      Leads components (names.map String.toList) (below.map String.toList)

theorem reaches_select (tree : store.IsTree) (isFile : store.isFile file = true)
    {components : List Component} {location : Location}
    (relative : .up ∉ components)
    (directory : store.isDirectory location = true) :
    Reaches store (select store components location) file ↔
      LeadsTo components location file := by
  rw [reaches_iff_below tree isFile]
  constructor
  · intro known
    obtain ⟨found, selected, below, way⟩ := known
    obtain ⟨names, same, leads⟩ :=
      exists_leads isFile relative directory way selected
    exact ⟨names, below, by rw [way, same, List.append_assoc], leads⟩
  · intro known
    obtain ⟨names, below, way, leads⟩ := known
    exact ⟨_, mem_select tree isFile way leads, below,
      by rw [way, List.append_assoc]⟩

theorem named_of_ne {part : List Char} (notDeep : part ≠ ['*', '*'])
    (notUp : part ≠ ['.', '.']) : Component.named part = .entry (tokens part) := by
  rw [Component.named, if_neg notDeep, if_neg notUp]

/-- A part without wildcards is a name, unless it is a step up. -/
theorem named_of_plain {part : List Char} (plain : hasWildcard part = false)
    (notUp : part ≠ ['.', '.']) : Component.named part = .entry (tokens part) := by
  apply named_of_ne
  · intro same
    rw [same] at plain
    cases plain
  · exact notUp

/-- Parts without wildcards lead past themselves. -/
theorem leads_plain {parts : List (List Char)} {rest : List Component}
    {names below : List (List Char)}
    (plain : ∀ part ∈ parts, hasWildcard part = false)
    (noUp : ['.', '.'] ∉ parts) :
    Leads (parts.map .named ++ rest) names below ↔
      ∃ later, names = parts ++ later ∧ Leads rest later below := by
  induction parts generalizing names with
  | nil => simp
  | cons part others ih =>
      obtain ⟨plainPart, plainOthers⟩ := List.forall_mem_cons.mp plain
      have notUp : part ≠ ['.', '.'] := fun same =>
        noUp (same ▸ List.mem_cons_self)
      have noUpOthers : ['.', '.'] ∉ others := fun member =>
        noUp (List.mem_cons_of_mem _ member)
      rw [List.map_cons, named_of_plain plainPart notUp, List.cons_append]
      constructor
      · intro leads
        cases leads with
        | entry accepted leads =>
            obtain ⟨later, split, follows⟩ := (ih plainOthers noUpOthers).mp leads
            rw [(accepts_plain plainPart).mp accepted, split]
            exact ⟨later, rfl, follows⟩
      · intro split
        obtain ⟨later, rfl, follows⟩ := split
        exact .entry ((accepts_plain plainPart).mpr rfl)
          ((ih plainOthers noUpOthers).mpr ⟨later, rfl, follows⟩)

end Reaching

/-! ## Regular patterns -/

namespace Anchored.IsRegular

variable {anchored : Anchored}

theorem body_ne_nil (regular : anchored.IsRegular) : anchored.body ≠ [] := by
  intro empty
  cases regular.parts with
  | inl here =>
      rw [empty] at here
      cases here
  | inr parts =>
      have member : [] ∈ anchored.parts := by
        rw [Anchored.parts, empty]
        exact List.mem_singleton_self []
      exact (parts.1 [] member).1 rfl

/-- The proper parts of a regular pattern are its parts, or none if it is the
directory itself. -/
theorem properParts_eq (regular : anchored.IsRegular) :
    anchored.body = ['.'] ∧ properParts anchored.body = [] ∨
      (∀ part ∈ anchored.parts, IsPart part) ∧
        tokens anchored.body = joinedTokens anchored.parts ∧
        properParts anchored.body = anchored.parts := by
  cases regular.parts with
  | inl here => exact .inl ⟨here, by rw [here]; rfl⟩
  | inr parts =>
      refine .inr ⟨parts.1, parts.2,
        List.filter_eq_self.mpr fun part member => ?_⟩
      obtain ⟨some, notHere, _⟩ := parts.1 part member
      simp [some, notHere]

theorem noUp (regular : anchored.IsRegular) :
    ['.', '.'] ∉ properParts anchored.body := by
  intro member
  cases regular.properParts_eq with
  | inl here =>
      rw [here.2] at member
      cases member
  | inr parts =>
      rw [parts.2.2] at member
      exact (parts.1 _ member).2.2.1 rfl

/-- A regular pattern starts with no slash. -/
theorem relative (regular : anchored.IsRegular) :
    anchored.pattern.head? ≠ some '/' := by
  intro slash
  obtain ⟨count, split⟩ := exists_slashes anchored.pattern
  have some := regular.body_ne_nil
  have body : dropTrailingSlashes anchored.pattern = anchored.body := rfl
  rw [body] at split
  cases starts : anchored.body with
  | nil => exact some starts
  | cons first rest =>
      rw [split, starts] at slash
      cases slash
      cases regular.parts with
      | inl here =>
          rw [starts] at here
          cases here
      | inr parts =>
          have member : [] ∈ anchored.parts := by
            rw [Anchored.parts, starts]
            exact List.mem_cons_self
          exact (parts.1 [] member).1 rfl

theorem pattern_ne_nil (regular : anchored.IsRegular) :
    anchored.pattern ≠ [] := by
  intro empty
  refine regular.body_ne_nil ?_
  rw [body, empty]
  rfl

end Anchored.IsRegular

section Base

variable {store : Store} {directory : Location} {pattern : String}

/-- A pattern is read at its directory or at the root. -/
theorem anchor_base (directory : Location) (pattern : String) :
    (anchor directory pattern).base = directory ∨
      (anchor directory pattern).base = .root := by
  unfold anchor Anchored.base
  dsimp only
  split
  · exact .inr rfl
  · split <;> exact .inl rfl

theorem isDirectory_base (isDirectory : store.isDirectory directory = true) :
    store.isDirectory (anchor directory pattern).base = true := by
  cases anchor_base directory pattern with
  | inl same => rwa [same]
  | inr root =>
      rw [root]
      rfl

theorem noUp_of_contains (tree : store.IsTree) {location : Location}
    (contained : store.contains location = true) :
    ∀ name ∈ location.names, name ≠ ".." := by
  intro name member same
  have part := tree.isPart contained name member
  rw [same] at part
  exact part.2.2.1 rfl

/-- The directory at which a pattern is read is found there. -/
theorem resolve_directory (tree : store.IsTree)
    (isDirectory : store.isDirectory directory = true) :
    (anchor directory pattern).directory.resolve =
      (anchor directory pattern).base := by
  have base := @isDirectory_base _ _ pattern isDirectory
  have noUp := noUp_of_contains tree (Store.contains_of_isDirectory base)
  exact congrArg Location.mk (collapse_eq noUp)

end Base

/-! ## Patterns without wildcards -/

theorem ofList_eq_dot {text : List Char} :
    String.ofList text = "." ↔ text = ['.'] := by
  constructor
  · intro same
    simpa using congrArg String.toList same
  · intro same
    rw [same]

theorem splitNames_ofList (text : List Char) :
    Path.splitNames (String.ofList text) =
      (properParts text).map String.ofList := by
  rw [Path.splitNames, String.toList_ofList, List.filter_map, properParts]
  congr 1
  refine List.filter_congr fun part _ => ?_
  rw [Bool.eq_iff_iff]
  simp [bne_iff_ne, ofList_eq_dot]

section Plain

variable {store : Store} {file : Location} {anchored : Anchored}

/-- The names to which a pattern without wildcards leads. -/
def Anchored.names (anchored : Anchored) : List String :=
  (properParts anchored.body).map String.ofList

theorem toList_names : anchored.names.map String.toList =
    properParts anchored.body := by
  rw [Anchored.names, List.map_map]
  exact (List.map_congr_left fun _ _ => String.toList_ofList).trans (List.map_id _)

theorem target_names (relative : anchored.pattern.head? ≠ some '/') :
    anchored.target.names = anchored.base.names ++ anchored.names := by
  have parts : properParts anchored.pattern = properParts anchored.body :=
    (properParts_dropTrailingSlashes anchored.pattern).symm
  simp only [Anchored.target, Path.join, String.toList_ofList,
    ofText?_of_relative relative, splitNames_ofList, parts]
  rfl

theorem noUp_target (tree : store.IsTree) (regular : anchored.IsRegular)
    (isDirectory : store.isDirectory anchored.base = true) :
    ∀ name ∈ anchored.target.names, name ≠ ".." := by
  intro name member
  rw [target_names regular.relative] at member
  cases List.mem_append.mp member with
  | inl above =>
      exact noUp_of_contains tree (Store.contains_of_isDirectory isDirectory)
        name above
  | inr own => exact noUp_of_parts regular.noUp name own

theorem plain_of_mem_properParts (plain : hasWildcard anchored.pattern = false) :
    ∀ part ∈ properParts anchored.body, hasWildcard part = false := by
  intro part member
  rw [Anchored.body, properParts_dropTrailingSlashes] at member
  have listed := (List.mem_filter.mp member).1
  rw [hasWildcard, List.any_eq_false] at plain ⊢
  exact fun character inside =>
    plain character (Text.mem_of_mem_splitOn listed inside)

/-- Without wildcards a pattern leads to what is at its names or below. -/
theorem leadsTo_plain (regular : anchored.IsRegular)
    (plain : hasWildcard anchored.pattern = false) :
    LeadsTo anchored.followed anchored.base file ↔
      ∃ below, file.names = anchored.target.names ++ below := by
  have followed : anchored.followed =
      (properParts anchored.body).map .named ++ [] := by
    simp [Anchored.followed, plain]
  rw [followed, target_names regular.relative]
  constructor
  · intro leadsTo
    obtain ⟨names, below, way, leads⟩ := leadsTo
    obtain ⟨later, split, done⟩ :=
      (leads_plain (plain_of_mem_properParts plain) regular.noUp).mp leads
    cases done
    rw [List.append_nil, ← toList_names] at split
    have same := List.map_injective_iff.mpr
      (fun _ _ equal => String.toList_injective equal) split
    exact ⟨below, by rw [way, same, List.append_assoc]⟩
  · intro known
    obtain ⟨below, way⟩ := known
    refine ⟨anchored.names, below, by rw [way, List.append_assoc], ?_⟩
    rw [toList_names]
    exact (leads_plain (plain_of_mem_properParts plain) regular.noUp).mpr
      ⟨[], (List.append_nil _).symm, .done⟩

/-- The components of everything below a pattern without wildcards. -/
def Anchored.belowNames (anchored : Anchored) : List Component :=
  (properParts anchored.body).map .named ++ [.deep, .entry [.anyText]]

theorem eq_components_below {found : List Component}
    (read : components (dropTrailingSlashes anchored.pattern ++
      "/**/*".toList) = .ok found) : found = anchored.belowNames := by
  have parts : properParts (dropTrailingSlashes anchored.pattern ++
      "/**/*".toList) = properParts anchored.body ++ [['*', '*'], ['*']] :=
    properParts_append_cons anchored.body "**/*".toList
  have last : (dropTrailingSlashes anchored.pattern ++
      "/**/*".toList).getLast? = some '*' := by simp
  have named : [['*', '*'], ['*']].map Component.named =
      [.deep, .entry [.anyText]] := by
    simp [Component.named, tokens]
  rw [eq_of_components read, parts, last, List.map_append, named,
    if_neg (by decide), List.append_nil, Anchored.belowNames]

theorem eq_of_glob_below {denoted : List Location}
    (isDirectory : store.isDirectory anchored.directory.resolve = true)
    (read : glob store anchored.directory
      (dropTrailingSlashes anchored.pattern ++ "/**/*".toList) = .ok denoted) :
    denoted = select store anchored.belowNames anchored.directory.resolve := by
  obtain ⟨found, made, rfl⟩ := exists_components_of_glob isDirectory read
  rw [eq_components_below made]

/-- Everything below a directory is reached by what is below it. -/
theorem leadsTo_belowNames (isFile : store.isFile file = true)
    (regular : anchored.IsRegular)
    (plain : hasWildcard anchored.pattern = false)
    (found : store.isDirectory ⟨anchored.target.names⟩ = true) :
    LeadsTo anchored.belowNames anchored.base file ↔
      ∃ below, file.names = anchored.target.names ++ below := by
  have parts := plain_of_mem_properParts plain
  rw [target_names regular.relative] at found ⊢
  constructor
  · intro leadsTo
    obtain ⟨names, below, way, leads⟩ := leadsTo
    obtain ⟨later, split, _⟩ := (leads_plain parts regular.noUp).mp leads
    rw [← toList_names] at split
    obtain ⟨own, more, rfl, same, _⟩ := List.map_eq_append_iff.mp split
    have equal := List.map_injective_iff.mpr
      (fun _ _ equal => String.toList_injective equal) same
    exact ⟨more ++ below, by rw [way, equal]; simp⟩
  · intro known
    obtain ⟨below, way⟩ := known
    cases below with
    | nil =>
        rw [List.append_nil] at way
        have same : file = ⟨anchored.base.names ++ anchored.names⟩ :=
          congrArg Location.mk way
        rw [← same, Store.isDirectory_eq_false_of_isFile isFile] at found
        cases found
    | cons name rest =>
        refine ⟨anchored.names ++ [name], rest, by rw [way]; simp, ?_⟩
        rw [List.map_append, toList_names]
        refine (leads_plain parts regular.noUp).mpr ⟨_, rfl, ?_⟩
        exact @Leads.deep _ [] [name.toList] _ (List.cons_ne_nil _ _)
          (.entry (accepts_any _) .done)

/-- What a pattern without wildcards denotes reaches what is at its names or
below. -/
theorem reaches_expandPlain (tree : store.IsTree)
    (isFile : store.isFile file = true) (regular : anchored.IsRegular)
    (plain : hasWildcard anchored.pattern = false)
    (isDirectory : store.isDirectory anchored.base = true)
    (resolved : anchored.directory.resolve = anchored.base)
    {denoted : List Location}
    (expanded : expandPlain store anchored = .ok denoted) :
    Reaches store denoted file ↔
      ∃ below, file.names = anchored.target.names ++ below := by
  have noUp := noUp_target tree regular isDirectory
  have contained : store.contains ⟨file.names⟩ = true :=
    Store.contains_of_isFile isFile
  unfold expandPlain at expanded
  split at expanded
  · next leads =>
    have found := isDirectory_of_leadsToDirectory noUp leads
    rw [eq_of_glob_below (resolved ▸ isDirectory) expanded, resolved,
      reaches_select tree isFile ?_ isDirectory]
    · exact leadsTo_belowNames isFile regular plain found
    · rw [Anchored.belowNames, List.mem_append]
      exact fun either => either.elim (up_not_mem_named regular.noUp) (by simp)
  · next notDirectory =>
    have target : anchored.target.resolve = ⟨anchored.target.names⟩ :=
      congrArg Location.mk (collapse_eq noUp)
    split at expanded
    · cases expanded
      rw [reaches_iff_below tree isFile, target]
      simp only [List.mem_singleton, exists_eq_left]
    · next notFile =>
      cases expanded
      rw [reaches_iff_below tree isFile]
      refine iff_of_false (by simp) fun known => ?_
      obtain ⟨below, way⟩ := known
      have present : store.contains ⟨anchored.target.names⟩ = true := by
        by_cases none : below = []
        · rw [none, List.append_nil] at way
          exact way ▸ contained
        · exact Store.contains_of_isDirectory
            (tree.isDirectory_above (way ▸ contained) none)
      cases leads_of_contains tree noUp present with
      | inl directory => exact notDirectory directory
      | inr file => exact notFile file

end Plain

/-- A regular pattern reaches the files to which its components lead. -/
theorem reaches_iff {store : Store} {directory file : Location}
    {pattern : String} {denoted : List Location} (tree : store.IsTree)
    (isDirectory : store.isDirectory directory = true)
    (isFile : store.isFile file = true)
    (regular : (anchor directory pattern).IsRegular)
    (expanded : expand store directory pattern = .ok denoted) :
    Reaches store denoted file ↔
      LeadsTo (anchor directory pattern).followed
        (anchor directory pattern).base file := by
  have base := @isDirectory_base _ _ pattern isDirectory
  have resolved := @resolve_directory _ _ pattern tree isDirectory
  obtain ⟨empty, _⟩ | ⟨wild, read⟩ | ⟨plain, read⟩ :=
    eq_ok_of_expand rfl expanded
  · exact absurd empty regular.pattern_ne_nil
  · have parts : properParts (anchor directory pattern).pattern =
        properParts (anchor directory pattern).body :=
      (properParts_dropTrailingSlashes _).symm
    rw [eq_of_glob (resolved ▸ base) read, resolved, parts]
    have followed : (anchor directory pattern).followed =
        (properParts (anchor directory pattern).body).map .named ++
          if (anchor directory pattern).pattern.getLast? = some '/' then
            [.here]
          else [] := by
      simp [Anchored.followed, wild]
    rw [← followed]
    refine reaches_select tree isFile ?_ base
    exact up_not_mem_components regular.noUp _
  · rw [leadsTo_plain regular plain]
    exact reaches_expandPlain tree isFile regular plain base resolved read

end ExportAudit.Pattern
