import Mathlib.Logic.Relation
import ExportAudit.Proofs.Path.Wide
import ExportAudit.Proofs.Project.Reading

/-!
# What descriptions inherit

The descriptions that one extends, directly or through others, stand in
post-order: those that an entry of `extends` brings come before those of later
entries, and all of them before the description itself.  A description that is
reached in several ways stands there as often.

`read_merges` says that of every option and every list the last declaration in
post-order counts, located against the directory of the description that makes
it.
-/

namespace ExportAudit.Config

open Relation (ReflTransGen TransGen)

/-! ## Declarations in post-order -/

/-- What one description declares itself. -/
structure Declaration where
  location : Location
  members : List (WideText × Json)
  declared : DeclaredOptions

namespace Declaration

/-- The directory against which the paths of a declaration are located. -/
def directory (declaration : Declaration) : Location :=
  declaration.location.parent

def allowJs (declaration : Declaration) : Option Bool :=
  declaration.declared.allowJs

def outDir (declaration : Declaration) : Option Location :=
  declaration.declared.outDir.map declaration.directory.resolveWide

def baseUrl (declaration : Declaration) : Option Location :=
  declaration.declared.baseUrl.map declaration.directory.resolveWide

def paths (declaration : Declaration) :
    Option (List (WideText × List WideText)) :=
  declaration.declared.paths

def files (declaration : Declaration) : Option (List Location) :=
  (stringList? declaration.members "files").map fun files =>
    files.map declaration.directory.resolveWide

/-- Patterns listed under a key, anchored at the directory of the
declaration. -/
def patterns (declaration : Declaration) (key : String) :
    Option (List DeclaredPattern) :=
  (stringList? declaration.members key).map fun patterns =>
    patterns.map fun pattern => ⟨declaration.directory, pattern⟩

/-- No path of a declaration holds the null character or a lone surrogate that
stands for no byte. -/
def IsLocated (declaration : Declaration) : Prop :=
  ∀ text ∈ ownTexts declaration.declared declaration.members,
    (declaration.directory.path.joinWide text).holdsNull = false

/-- The points of its texts decide whether the paths of a declaration can be
asked for. -/
theorem isLocated_iff {declaration : Declaration}
    (clean : declaration.directory.path.holdsNull = false) :
    declaration.IsLocated ↔
      ∀ text ∈ ownTexts declaration.declared declaration.members,
        ∀ point ∈ text.points, ¬ point.IsRefused := by
  refine forall₂_congr fun text _ => ?_
  rw [← Bool.not_eq_true, Path.holdsNull_joinWide, clean]
  simp

end Declaration

mutual

/-- The declarations of a description and of all that it extends, in
post-order. -/
inductive PostOrder (store : Store) : Location → List Declaration → Prop where
  | node {location : Location} {members : List (WideText × Json)}
      {entries : List WideText} {declared : DeclaredOptions}
      {below : List Declaration}
      (holds : Holds store location members)
      (lists : extendsEntries (Json.member? "extends" members) =
        .ok entries)
      (valid : declaredOptions members = .ok declared)
      (extended : PostOrders store location.parent entries below) :
      PostOrder store location (below ++ [⟨location, members, declared⟩])

/-- The declarations that entries of `extends` bring, in post-order. -/
inductive PostOrders (store : Store) :
    Location → List WideText → List Declaration → Prop where
  | nil {directory : Location} : PostOrders store directory [] []
  | external {directory : Location} {entry : WideText} {rest : List WideText}
      {below : List Declaration}
      (outside : extendedConfig? store directory entry = .ok none)
      (others : PostOrders store directory rest below) :
      PostOrders store directory (entry :: rest) below
  | followed {directory parent : Location} {entry : WideText}
      {rest : List WideText} {first below : List Declaration}
      (named : extendedConfig? store directory entry = .ok (some parent))
      (ordered : PostOrder store parent first)
      (others : PostOrders store directory rest below) :
      PostOrders store directory (entry :: rest) (first ++ below)

end

variable {store : Store} {seen : List Location} {location directory : Location}
  {members : List (WideText × Json)}

/-- A description extends another by one of its entries. -/
def Extends (store : Store) (child parent : Location) : Prop :=
  ∃ members entries, Holds store child members ∧
    extendsEntries (Json.member? "extends" members) = .ok entries ∧
    ∃ entry ∈ entries,
      extendedConfig? store child.parent entry = .ok (some parent)

/-- No description that is reached from one extends itself through others. -/
def Acyclic (store : Store) (location : Location) : Prop :=
  ∀ reached, ReflTransGen (Extends store) location reached →
    ¬ TransGen (Extends store) reached reached

/-- A description can be read, is an object with options of the right types, and
its entries of `extends` can be followed. -/
def IsValid (store : Store) (location : Location) : Prop :=
  ∃ members entries declared, Holds store location members ∧
    extendsEntries (Json.member? "extends" members) = .ok entries ∧
    declaredOptions members = .ok declared ∧
    ∀ entry ∈ entries, ∃ extended,
      extendedConfig? store location.parent entry = .ok extended

theorem Acyclic.parent {parent : Location} (acyclic : Acyclic store location)
    (direct : Extends store location parent) : Acyclic store parent := by
  intro reached way
  exact acyclic reached (ReflTransGen.head direct way)

/-- None of the descriptions being read is reached from a description. -/
def IsFresh (store : Store) (seen : List Location) (location : Location) :
    Prop :=
  ∀ known ∈ seen, ¬ ReflTransGen (Extends store) location known

theorem IsFresh.not_mem (fresh : IsFresh store seen location) :
    location ∉ seen :=
  fun known => fresh location known .refl

theorem IsFresh.parent {parent : Location}
    (fresh : IsFresh store seen location) (acyclic : Acyclic store location)
    (direct : Extends store location parent) :
    IsFresh store (location :: seen) parent := by
  intro known member way
  rcases List.mem_cons.mp member with rfl | member
  · exact acyclic known .refl (TransGen.head' direct way)
  · exact fresh known member (ReflTransGen.head direct way)

/-- Below a description that extends nothing in a circle, post-order exists. -/
theorem exists_postOrder (store : Store) (seen : List Location)
    (location : Location) (fresh : IsFresh store seen location)
    (acyclic : Acyclic store location)
    (valid : ∀ reached, ReflTransGen (Extends store) location reached →
      IsValid store reached) :
    ∃ post, PostOrder store location post := by
  obtain ⟨members, entries, declared, holds, lists, options, followed⟩ :=
    valid location .refl
  have extended : ∀ rest : List WideText, (∀ entry ∈ rest, entry ∈ entries) →
      ∃ below, PostOrders store location.parent rest below := by
    intro rest
    induction rest with
    | nil => exact fun _ => ⟨[], .nil⟩
    | cons entry rest ih =>
        intro listed
        rw [List.forall_mem_cons] at listed
        obtain ⟨below, others⟩ := ih listed.2
        obtain ⟨extended, named⟩ := followed entry listed.1
        cases extended with
        | none => exact ⟨below, .external named others⟩
        | some parent =>
            have direct : Extends store location parent :=
              ⟨members, entries, holds, lists, entry, listed.1, named⟩
            have smaller := holds.unseen_lt fresh.not_mem
            obtain ⟨first, ordered⟩ := exists_postOrder store
              (location :: seen) parent (fresh.parent acyclic direct)
              (acyclic.parent direct)
              fun reached way => valid reached (ReflTransGen.head direct way)
            exact ⟨first ++ below, .followed named ordered others⟩
  obtain ⟨below, ordered⟩ := extended entries fun _ member => member
  exact ⟨_, .node holds lists options ordered⟩
termination_by unseen store seen

/-! ## The last declaration counts -/

/-- The last value that declarations give. -/
def lastDeclared {α : Type} (key : Declaration → Option α)
    (post : List Declaration) : Option α :=
  (post.filterMap key).getLast?

theorem lastDeclared_append {α : Type} (key : Declaration → Option α)
    (first second : List Declaration) :
    lastDeclared key (first ++ second) =
      (lastDeclared key second).or (lastDeclared key first) := by
  rw [lastDeclared, List.filterMap_append, List.getLast?_append]
  rfl

theorem lastDeclared_singleton {α : Type} (key : Declaration → Option α)
    (declaration : Declaration) :
    lastDeclared key [declaration] = key declaration := by
  cases value : key declaration <;> simp [lastDeclared, value]

/-- Of every option and every list a description has the last declaration. -/
structure Merges (post : List Declaration) (config : Config) : Prop where
  allowJs : config.options.allowJs = lastDeclared (·.allowJs) post
  outDir : config.options.outDir = lastDeclared (·.outDir) post
  baseUrl : config.options.baseUrl = lastDeclared (·.baseUrl) post
  paths : config.options.paths = lastDeclared (·.paths) post
  files : config.files = lastDeclared (·.files) post
  included : config.included = lastDeclared (·.patterns "include") post
  excluded : config.excluded = lastDeclared (·.patterns "exclude") post

theorem merges_empty : Merges [] empty :=
  ⟨rfl, rfl, rfl, rfl, rfl, rfl, rfl⟩

theorem Merges.override {first second : List Declaration}
    {inherited own : Config} (earlier : Merges first inherited)
    (later : Merges second own) :
    Merges (first ++ second) (inherited.override own) := by
  constructor <;>
    simp only [Config.override, Options.override, lastDeclared_append,
      Option.orElse_eq_or, earlier.allowJs, earlier.outDir, earlier.baseUrl,
      earlier.paths, earlier.files, earlier.included, earlier.excluded,
      later.allowJs, later.outDir, later.baseUrl, later.paths, later.files,
      later.included, later.excluded]

theorem eq_resolveWide_of_locateWide (text : WideText) (located : Location)
    (found : directory.locateWide text = .ok located) :
    located = directory.resolveWide text :=
  (locateWide_eq_ok.mp found).2

/-- What a description declares itself is the last declaration of its own. -/
theorem merges_own (declaration : Declaration)
    {inheritedBase : Option Location} {config : Config}
    (located : own declaration.directory inheritedBase declaration.declared
      declaration.members = .ok config) : Merges [declaration] config := by
  unfold own ownOptions at located
  simp only [bind_eq_ok] at located
  obtain ⟨options, ⟨outDir, outDirFound, baseUrl, baseFound, same⟩, files,
    filesFound, done⟩ := located
  cases same
  cases done
  have resolved := @eq_resolveWide_of_locateWide declaration.directory
  constructor <;> rw [lastDeclared_singleton]
  case outDir => exact eq_map_of_optionMapM resolved outDirFound
  case baseUrl => exact eq_map_of_optionMapM resolved baseFound
  case files =>
    exact eq_map_of_optionMapM
      (fun _ _ found => eq_map_of_mapM resolved found) filesFound
  all_goals rfl

theorem exists_own_iff {inheritedBase : Option Location}
    {declaration : Declaration} :
    (∃ config, own declaration.directory inheritedBase declaration.declared
      declaration.members = .ok config) ↔ declaration.IsLocated := by
  rw [exists_ok_iff, fails_own]
  simp [Declaration.IsLocated]

/-- An outcome gives what declarations in post-order come to, unless one of
their paths cannot be asked for. -/
def Gives (outcome : Except ConfigError Config) (all post : List Declaration) :
    Prop :=
  ((∃ config, outcome = .ok config) ↔
    ∀ declaration ∈ post, declaration.IsLocated) ∧
  ∀ config, outcome = .ok config → Merges all config

theorem inheritEntry_of_external {entry : WideText} {inherited : Config}
    (outside : extendedConfig? store location.parent entry = .ok none) :
    inheritEntry store seen location inherited entry = .ok inherited := by
  rw [inheritEntry, readEntry, outside]
  rfl

theorem inheritEntry_of_named {entry : WideText} {parent : Location}
    {inherited : Config}
    (named : extendedConfig? store location.parent entry = .ok (some parent)) :
    inheritEntry store seen location inherited entry =
      inherited.override <$> readFrom store (location :: seen) parent := by
  rw [inheritEntry, readEntry, named]
  change _ <$> some <$> readFrom store (location :: seen) parent = _
  rw [Functor.map_map]
  rfl

theorem Gives.map_override {outcome : Except ConfigError Config}
    {before post : List Declaration} {inherited : Config}
    (gives : Gives outcome post post) (merged : Merges before inherited) :
    Gives (inherited.override <$> outcome) (before ++ post) post := by
  constructor
  · rw [← gives.1, exists_ok_iff, exists_ok_iff]
    exact not_congr failsBy_map
  · intro config given
    obtain ⟨own, passed, rfl⟩ := map_eq_ok.mp given
    exact merged.override (gives.2 own passed)

/-- One outcome after another gives what the declarations of both come to. -/
theorem Gives.bind {outcome : Except ConfigError Config}
    {next : Config → Except ConfigError Config}
    {before first second : List Declaration}
    (gives : Gives outcome (before ++ first) first)
    (continues : ∀ config, Merges (before ++ first) config →
      Gives (next config) (before ++ first ++ second) second) :
    Gives (outcome >>= next) (before ++ (first ++ second))
      (first ++ second) := by
  rw [← List.append_assoc]
  constructor
  · rw [List.forall_mem_append, ← gives.1]
    constructor
    · rintro ⟨final, given⟩
      obtain ⟨config, passed, given⟩ := bind_eq_ok.mp given
      exact ⟨⟨config, passed⟩,
        (continues config (gives.2 config passed)).1.mp ⟨final, given⟩⟩
    · rintro ⟨⟨config, passed⟩, located⟩
      obtain ⟨final, given⟩ :=
        (continues config (gives.2 config passed)).1.mpr located
      exact ⟨final, bind_eq_ok.mpr ⟨config, passed, given⟩⟩
  · intro final given
    obtain ⟨config, passed, given⟩ := bind_eq_ok.mp given
    exact (continues config (gives.2 config passed)).2 final given

/-- What the declarations of a description itself add to what it inherits. -/
theorem gives_declared {declared : DeclaredOptions} {below : List Declaration}
    {inherited : Config} (valid : declaredOptions members = .ok declared)
    (merged : Merges below inherited) :
    Gives (do
      let declared ← (declaredOptions members).mapError
        (ConfigError.unusable location)
      let own ← (own location.parent inherited.options.baseUrl declared
        members).mapError ConfigError.stop
      return inherited.override own)
      (below ++ [⟨location, members, declared⟩])
      [⟨location, members, declared⟩] := by
  rw [valid, mapError_eq_ok.mpr rfl, ok_bind, bind_pure_comp]
  refine Gives.map_override ?_ merged
  have located := @exists_own_iff inherited.options.baseUrl
    ⟨location, members, declared⟩
  constructor
  · simp only [mapError_eq_ok, List.forall_mem_singleton]
    exact located
  · intro config given
    exact merges_own ⟨location, members, declared⟩ (mapError_eq_ok.mp given)

mutual

/-- Reading a description gives what its declarations in post-order come to. -/
theorem PostOrder.gives {post : List Declaration} :
    {location : Location} → PostOrder store location post →
    {seen : List Location} → IsFresh store seen location →
    Acyclic store location →
    Gives (readFrom store seen location) post post
  | location, .node holds lists valid extended, seen, fresh, acyclic => by
    rw [holds.readFrom_eq fresh.not_mem, readBody, lists,
      mapError_eq_ok.mpr rfl, ok_bind]
    have inherited := extended.gives fresh acyclic rfl
      (fun entry member parent named =>
        ⟨_, _, holds, lists, entry, member, named⟩) merges_empty
    exact Gives.bind inherited fun config merged => gives_declared valid merged

/-- Following entries of `extends` gives what the declarations that they bring
come to, after those that came before. -/
theorem PostOrders.gives {below : List Declaration} :
    {directory : Location} → {entries : List WideText} →
    PostOrders store directory entries below →
    {location : Location} → {seen : List Location} →
    IsFresh store seen location → Acyclic store location →
    directory = location.parent →
    (∀ entry ∈ entries, ∀ parent,
      extendedConfig? store location.parent entry = .ok (some parent) →
        Extends store location parent) →
    {before : List Declaration} → {inherited : Config} →
    Merges before inherited →
    Gives (entries.foldlM (inheritEntry store seen location) inherited)
      (before ++ below) below
  | _, _, .nil, location, seen, _, _, _, _, before, inherited, merged => by
    constructor
    · simp [pure, Except.pure]
    · intro config given
      cases given
      rw [List.append_nil]
      exact merged
  | _, _, .external outside others, location, seen, fresh, acyclic, same,
      extend, before, inherited, merged => by
    rw [List.forall_mem_cons] at extend
    rw [List.foldlM_cons, inheritEntry_of_external (same ▸ outside), ok_bind]
    exact others.gives fresh acyclic same extend.2 merged
  | _, _, .followed named ordered others, location, seen, fresh, acyclic, same,
      extend, before, inherited, merged => by
    rw [List.forall_mem_cons] at extend
    rw [List.foldlM_cons, inheritEntry_of_named (same ▸ named)]
    have direct := extend.1 _ (same ▸ named)
    have first := ordered.gives (fresh.parent acyclic direct)
      (acyclic.parent direct)
    exact Gives.bind (first.map_override merged) fun config merged =>
      others.gives fresh acyclic same extend.2 merged

end

/-- Below a description that extends nothing in a circle and only reaches valid
ones there is a post-order.  Reading gives a result unless a path that one of the
descriptions declares holds the null character or a lone surrogate, and then of
every option and every list the last declaration in post-order counts. -/
theorem read_merges (acyclic : Acyclic store location)
    (valid : ∀ reached, ReflTransGen (Extends store) location reached →
      IsValid store reached) :
    (∃ post, PostOrder store location post) ∧
    ∀ post, PostOrder store location post →
      ((∃ config, read store location = .ok config) ↔
        ∀ declaration ∈ post, declaration.IsLocated) ∧
      ∀ config, read store location = .ok config → Merges post config := by
  have fresh : IsFresh store [] location := fun known member => by cases member
  constructor
  · exact exists_postOrder store [] location fresh acyclic valid
  · intro post ordered
    exact ordered.gives fresh acyclic

/-! ## A description that extends another -/

/-- A description that extends another and lists patterns of its own. -/
def extendingFiles : Store :=
  (Store.empty.write ⟨["b.json"]⟩
    (.ofText "\x7b\"files\":[\"x.ts\"],\"include\":[]\x7d")).write
      ⟨["app", "a.json"]⟩
      (.ofText "\x7b\"extends\":\"../b.json\",\"include\":[\"y\"]\x7d")

/-- What the extended description holds. -/
def baseMembers : List (WideText × Json) :=
  [("files", .array [.string "x.ts"]), ("include", .array [])]

/-- What the extending description holds. -/
def appMembers : List (WideText × Json) :=
  [("extends", .string "../b.json"), ("include", .array [.string "y"])]

/-- The declarations of both in post-order. -/
def extendingPost : List Declaration :=
  [⟨⟨["b.json"]⟩, baseMembers, ⟨none, none, none, none⟩⟩,
    ⟨⟨["app", "a.json"]⟩, appMembers, ⟨none, none, none, none⟩⟩]

theorem holds_base : Holds extendingFiles ⟨["b.json"]⟩ baseMembers :=
  ⟨_, text?_ofText rfl, by cbv⟩

theorem holds_app :
    Holds extendingFiles ⟨["app", "a.json"]⟩ appMembers :=
  ⟨_, text?_ofText rfl, by cbv⟩

theorem extendedConfig?_app :
    extendedConfig? extendingFiles ⟨["app"]⟩ "../b.json" =
      .ok (some ⟨["b.json"]⟩) := by
  have place : Location.resolveWide ⟨["app"]⟩ "../b.json" = ⟨["b.json"]⟩ := by
    decide
  have located : Location.locateWide ⟨["app"]⟩ "../b.json" =
      .ok ⟨["b.json"]⟩ :=
    locateWide_eq_ok.mpr ⟨by decide, place.symm⟩
  have complete : Location.suffix ⟨["b.json"]⟩ = ".json" := by decide
  rw [extendedConfig?, if_pos (by decide), located, ok_bind, if_pos complete]
  rfl

theorem not_extends_base (parent : Location) :
    ¬ Extends extendingFiles ⟨["b.json"]⟩ parent := by
  rintro ⟨members, entries, holds, lists, entry, member, _⟩
  cases holds.unique holds_base
  cases lists
  cases member

theorem extends_app {parent : Location}
    (direct : Extends extendingFiles ⟨["app", "a.json"]⟩ parent) :
    parent = ⟨["b.json"]⟩ := by
  obtain ⟨members, entries, holds, lists, entry, member, named⟩ := direct
  cases holds.unique holds_app
  cases lists
  cases List.mem_singleton.mp member
  have same := extendedConfig?_app.symm.trans named
  cases same
  rfl

theorem reached_app {reached : Location}
    (way : ReflTransGen (Extends extendingFiles) ⟨["app", "a.json"]⟩
      reached) :
    reached = ⟨["app", "a.json"]⟩ ∨ reached = ⟨["b.json"]⟩ := by
  induction way with
  | refl => exact .inl rfl
  | tail _ direct ih =>
      rcases ih with rfl | rfl
      · exact .inr (extends_app direct)
      · exact absurd direct (not_extends_base _)

theorem postOrder_app : PostOrder extendingFiles ⟨["app", "a.json"]⟩
    extendingPost := by
  have base : PostOrder extendingFiles ⟨["b.json"]⟩
      [⟨⟨["b.json"]⟩, baseMembers, ⟨none, none, none, none⟩⟩] :=
    .node holds_base rfl rfl .nil
  exact .node holds_app rfl rfl (.followed extendedConfig?_app base .nil)

/-- The patterns that are listed twice are those of the extending description;
the files are inherited and stand beside the description that lists them. -/
theorem read_extendingFiles :
    Acyclic extendingFiles ⟨["app", "a.json"]⟩ ∧
    (∀ reached, ReflTransGen (Extends extendingFiles)
        ⟨["app", "a.json"]⟩ reached →
      IsValid extendingFiles reached) ∧
    ∃ config, read extendingFiles ⟨["app", "a.json"]⟩ = .ok config ∧
      config.files = some [⟨["x.ts"]⟩] ∧
      config.included = some [⟨⟨["app"]⟩, "y"⟩] := by
  have acyclic : Acyclic extendingFiles ⟨["app", "a.json"]⟩ := by
    intro reached way around
    obtain ⟨parent, direct, back⟩ := TransGen.head'_iff.mp around
    rcases reached_app way with rfl | rfl
    · cases extends_app direct
      rcases ReflTransGen.cases_head back with same | ⟨next, further, _⟩
      · revert same
        decide
      · exact not_extends_base next further
    · exact not_extends_base parent direct
  have valid : ∀ reached, ReflTransGen (Extends extendingFiles)
      ⟨["app", "a.json"]⟩ reached →
      IsValid extendingFiles reached := by
    intro reached way
    rcases reached_app way with rfl | rfl
    · refine ⟨appMembers, ["../b.json"], _, holds_app, rfl, rfl, ?_⟩
      intro entry member
      cases List.mem_singleton.mp member
      exact ⟨_, extendedConfig?_app⟩
    · exact ⟨baseMembers, [], _, holds_base, rfl, rfl, by simp⟩
  have merges := (read_merges acyclic valid).2 extendingPost postOrder_app
  have located : ∀ declaration ∈ extendingPost, declaration.IsLocated := by
    simp only [extendingPost, List.forall_mem_cons, Declaration.IsLocated]
    decide
  obtain ⟨config, given⟩ := merges.1.mpr located
  have merged := merges.2 config given
  exact ⟨acyclic, valid, config, given, merged.files, merged.included⟩

end ExportAudit.Config
