import ExportAudit.Proofs.Analysis.Halting
import ExportAudit.Proofs.Project.Circularity

/-!
# Where aliases lie

The targets of aliases are located against a base that is fixed where the
aliases are declared: the base URL that this description declares or inherits,
and without one its own directory.

`load_pathsBase` says which declarations this comes to in post-order.  A base
URL that is only declared later, by a description that extends the one with the
aliases or by an entry after it, does not move the aliases; a base URL that
earlier entries bring does so only if the description inherits it.
-/

namespace ExportAudit.Config

open Relation (TransGen)

variable {store : Store} {seen : List Location} {location : Location}
  {members : List (WideText × Json)}

/-! ## Post-order is determined -/

mutual

theorem PostOrder.unique {first : List Declaration} : {second : List Declaration} →
    {location : Location} → PostOrder store location first →
    PostOrder store location second → first = second
  | _, _, .node holds lists valid extended, .node also alsoLists alsoValid
      alsoExtended => by
    cases also.unique holds
    cases alsoLists.symm.trans lists
    cases alsoValid.symm.trans valid
    rw [extended.unique alsoExtended]

theorem PostOrders.unique {first : List Declaration} :
    {second : List Declaration} → {directory : Location} →
    {entries : List WideText} → PostOrders store directory entries first →
    PostOrders store directory entries second → first = second
  | _, _, _, .nil, .nil => rfl
  | _, _, _, .external _ others, .external _ alsoOthers =>
    others.unique alsoOthers
  | _, _, _, .external outside _, .followed named _ _ => by
    cases outside.symm.trans named
  | _, _, _, .followed named _ _, .external outside _ => by
    cases outside.symm.trans named
  | _, _, _, .followed named ordered others, .followed alsoNamed alsoOrdered
      alsoOthers => by
    cases alsoNamed.symm.trans named
    rw [ordered.unique alsoOrdered, others.unique alsoOthers]

end

/-! ## Where post-order exists -/

/-- What an entry names has a post-order within that of all entries. -/
theorem PostOrders.exists_postOrder {entry : WideText} {parent : Location} :
    {directory : Location} → {entries : List WideText} →
    {below : List Declaration} → PostOrders store directory entries below →
    entry ∈ entries →
    extendedConfig? store directory entry = .ok (some parent) →
    ∃ post, PostOrder store parent post ∧ post.length ≤ below.length
  | _, _, _, .nil, member, _ => by cases member
  | _, _, _, .external outside others, member, named => by
    rcases List.mem_cons.mp member with rfl | member
    · cases outside.symm.trans named
    · exact others.exists_postOrder member named
  | _, _, _, @PostOrders.followed _ _ _ _ _ first _ also ordered others,
      member, named => by
    rw [List.length_append]
    rcases List.mem_cons.mp member with rfl | member
    · cases also.symm.trans named
      exact ⟨first, ordered, Nat.le_add_right ..⟩
    · obtain ⟨post, found, shorter⟩ := others.exists_postOrder member named
      exact ⟨post, found, Nat.le_add_left_of_le shorter⟩

theorem PostOrder.parent {parent : Location} {post : List Declaration}
    (ordered : PostOrder store location post)
    (direct : Extends store location parent) :
    ∃ shorter, PostOrder store parent shorter ∧
      shorter.length < post.length := by
  cases ordered with
  | node holds lists valid extended =>
      obtain ⟨entry, member, named⟩ := (holds.extends_iff lists).mp direct
      obtain ⟨post, found, shorter⟩ := extended.exists_postOrder member named
      refine ⟨post, found, ?_⟩
      rw [List.length_append, List.length_singleton]
      exact Nat.lt_add_one_of_le shorter

theorem PostOrder.above {reached : Location} {post : List Declaration}
    (ordered : PostOrder store location post)
    (way : TransGen (Extends store) location reached) :
    ∃ shorter, PostOrder store reached shorter ∧
      shorter.length < post.length := by
  induction way with
  | single direct => exact ordered.parent direct
  | tail _ direct ih =>
      obtain ⟨between, found, shorter⟩ := ih
      obtain ⟨post, last, shortest⟩ := found.parent direct
      exact ⟨post, last, shortest.trans shorter⟩

/-- What has a post-order does not extend itself, as post-order only gets
shorter on the way. -/
theorem PostOrder.acyclic {post : List Declaration}
    (ordered : PostOrder store location post) : Acyclic store location := by
  intro reached way around
  have found : ∃ post, PostOrder store reached post := by
    rcases Relation.reflTransGen_iff_eq_or_transGen.mp way with rfl | way
    · exact ⟨post, ordered⟩
    · obtain ⟨shorter, found, _⟩ := ordered.above way
      exact ⟨shorter, found⟩
  obtain ⟨post, found⟩ := found
  obtain ⟨shorter, again, lower⟩ := found.above around
  rw [again.unique found] at lower
  exact Nat.lt_irrefl _ lower

/-- A description with a post-order is read unless a path that is declared in it
holds the null character or a lone surrogate. -/
theorem PostOrder.exists_read_iff {post : List Declaration}
    (ordered : PostOrder store location post) :
    (∃ config, read store location = .ok config) ↔
      ∀ declaration ∈ post, declaration.IsLocated :=
  (ordered.gives (fun _ member => by cases member) ordered.acyclic).1

/-! ## The declaration whose aliases count -/

/-- The declaration whose aliases count, among the others in post-order:
`below` are those that its description extends, and of those that come after it
none declares aliases. -/
structure LastAliases (store : Store) (post outside below : List Declaration)
    (declaration : Declaration) (after : List Declaration) : Prop where
  split : post = outside ++ (below ++ declaration :: after)
  declares : declaration.paths.isSome
  later : ∀ other ∈ after, other.paths = none
  ordered : PostOrder store declaration.location (below ++ [declaration])

/-- The base of the aliases that count, where some are declared. -/
inductive LieAt (store : Store) (post : List Declaration) :
    Option Location → Prop where
  | none (absent : ∀ declaration ∈ post, declaration.paths = none) :
      LieAt store post none
  | some {outside below after : List Declaration} {declaration : Declaration}
      (last : LastAliases store post outside below declaration after) :
      LieAt store post
        (some ((lastDeclared (·.baseUrl) (below ++ [declaration])).getD
          declaration.directory))

theorem LieAt.append {first second : List Declaration}
    {earlier later : Option Location} (before : LieAt store first earlier)
    (after : LieAt store second later) :
    LieAt store (first ++ second) (later.or earlier) := by
  cases after with
  | none absent =>
      rw [Option.none_or]
      cases before with
      | none also =>
          exact .none (List.forall_mem_append.mpr ⟨also, absent⟩)
      | @some outside below rest declaration last =>
          have found : LastAliases store (first ++ second) outside below
              declaration (rest ++ second) := by
            refine ⟨?_, last.declares, ?_, last.ordered⟩
            · rw [last.split]
              simp
            · exact List.forall_mem_append.mpr ⟨last.later, absent⟩
          exact .some found
  | @some outside below rest declaration last =>
      rw [Option.some_or]
      have found : LastAliases store (first ++ second) (first ++ outside) below
          declaration rest := by
        refine ⟨?_, last.declares, last.later, last.ordered⟩
        rw [last.split, List.append_assoc]
      exact .some found

/-- What a description declares itself fixes the base of its own aliases. -/
theorem lieAt_own {below : List Declaration} {declaration : Declaration}
    {inherited config : Config}
    (located : own declaration.directory inherited.options.baseUrl
      declaration.declared declaration.members = .ok config)
    (merged : Merges below inherited)
    (earlier : LieAt store below inherited.options.pathsBase)
    (ordered : PostOrder store declaration.location (below ++ [declaration])) :
    LieAt store (below ++ [declaration])
      (config.options.pathsBase.or inherited.options.pathsBase) := by
  have own := merges_own declaration located
  unfold Config.own ownOptions at located
  simp only [bind_eq_ok] at located
  obtain ⟨options, ⟨outDir, outDirFound, baseUrl, baseFound, same⟩, files,
    filesFound, done⟩ := located
  cases same
  cases done
  cases written : declaration.declared.paths with
  | none =>
      refine earlier.append (.none ?_)
      simpa [Declaration.paths] using written
  | some aliases =>
      have base : (baseUrl.or inherited.options.baseUrl).getD
          declaration.directory =
            (lastDeclared (·.baseUrl) (below ++ [declaration])).getD
              declaration.directory := by
        rw [lastDeclared_append, ← merged.baseUrl, ← own.baseUrl]
      have last : LastAliases store (below ++ [declaration]) [] below
          declaration [] :=
        ⟨rfl, by simp [Declaration.paths, written], by simp, ordered⟩
      have lies := LieAt.some last
      rw [← base] at lies
      simpa [Option.orElse_eq_or] using lies

theorem override_pathsBase (inherited own : Config) :
    (inherited.override own).options.pathsBase =
      own.options.pathsBase.or inherited.options.pathsBase := by
  simp only [Config.override, Options.override, Option.orElse_eq_or]

/-! ## Reading -/

/-- What reading a description comes to, in its declarations in post-order. -/
structure Describes (store : Store) (post : List Declaration)
    (config : Config) : Prop where
  merges : Merges post config
  lies : LieAt store post config.options.pathsBase

theorem describes_empty : Describes store [] empty :=
  ⟨merges_empty, .none (by simp)⟩

theorem Describes.override {first second : List Declaration}
    {inherited own : Config} (earlier : Describes store first inherited)
    (later : Describes store second own) :
    Describes store (first ++ second) (inherited.override own) := by
  refine ⟨earlier.merges.override later.merges, ?_⟩
  rw [override_pathsBase]
  exact earlier.lies.append later.lies

/-- Following entries adds the declarations that they bring, if reading what
they name does. -/
theorem exists_postOrders_of_foldlM
    (reads : ∀ parent config,
      readFrom store (location :: seen) parent = .ok config →
        ∃ post, PostOrder store parent post ∧ Describes store post config)
    {entries : List WideText} {before : List Declaration}
    {inherited config : Config} (describes : Describes store before inherited)
    (given : entries.foldlM (inheritEntry store seen location) inherited =
      .ok config) :
    ∃ below, PostOrders store location.parent entries below ∧
      Describes store (before ++ below) config := by
  induction entries generalizing before inherited with
  | nil =>
      cases given
      exact ⟨[], .nil, by rwa [List.append_nil]⟩
  | cons entry rest ih =>
      rw [List.foldlM_cons, bind_eq_ok] at given
      obtain ⟨next, followed, given⟩ := given
      cases named : extendedConfig? store location.parent entry with
      | error failure =>
          rw [inheritEntry, readEntry, named] at followed
          cases followed
      | ok extended =>
          cases extended with
          | none =>
              rw [inheritEntry_of_external named] at followed
              cases followed
              obtain ⟨below, ordered, describes⟩ := ih describes given
              exact ⟨below, .external named ordered, describes⟩
          | some parent =>
              rw [inheritEntry_of_named named, map_eq_ok] at followed
              obtain ⟨own, read, rfl⟩ := followed
              obtain ⟨first, ordered, described⟩ := reads parent own read
              obtain ⟨below, others, describes⟩ :=
                ih (describes.override described) given
              refine ⟨first ++ below, .followed named ordered others, ?_⟩
              rwa [← List.append_assoc]

/-- A description that is read has a post-order, and what is read is described
by it. -/
theorem exists_postOrder_of_readFrom (store : Store) (seen : List Location)
    (location : Location) (config : Config)
    (given : readFrom store seen location = .ok config) :
    ∃ post, PostOrder store location post ∧ Describes store post config := by
  have fresh := not_mem_of_readFrom given
  cases found : store.file? location with
  | none =>
      rw [readFrom_of_missing fresh found] at given
      cases given
  | some content =>
      rw [readFrom_of_found fresh found] at given
      obtain ⟨members, held, given⟩ := bind_eq_ok.mp given
      have holds := (readMembers_eq_ok found).mp held
      simp only [readBody, bind_eq_ok, mapError_eq_ok] at given
      obtain ⟨entries, lists, inherited, folded, declared, valid, own, located,
        done⟩ := given
      cases done
      have smaller := unseen_cons_lt found fresh
      obtain ⟨below, extended, describes⟩ := exists_postOrders_of_foldlM
        (fun parent config read => exists_postOrder_of_readFrom store
          (location :: seen) parent config read) describes_empty folded
      rw [List.nil_append] at describes
      have ordered := PostOrder.node holds lists valid extended
      refine ⟨_, ordered, describes.merges.override
        (merges_own ⟨location, members, declared⟩ located), ?_⟩
      rw [override_pathsBase]
      exact lieAt_own located describes.merges describes.lies ordered
termination_by unseen store seen

/-! ## Later and earlier base URLs -/

theorem lastDeclared_eq_none {α : Type} {key : Declaration → Option α}
    {post : List Declaration} :
    lastDeclared key post = none ↔ ∀ other ∈ post, key other = none := by
  rw [lastDeclared, List.getLast?_eq_none_iff, List.filterMap_eq_nil_iff]

theorem LastAliases.lastDeclared_eq {α : Type} {key : Declaration → Option α}
    {post outside below after : List Declaration} {declaration : Declaration}
    (last : LastAliases store post outside below declaration after)
    (later : ∀ other ∈ after, key other = none) :
    lastDeclared key post =
      (lastDeclared key (below ++ [declaration])).or
        (lastDeclared key outside) := by
  have split : post = outside ++ (below ++ [declaration] ++ after) := by
    rw [last.split, List.append_cons]
  rw [split, lastDeclared_append, lastDeclared_append _ _ after,
    lastDeclared_eq_none.mpr later, Option.none_or]

theorem LastAliases.paths_eq {post outside below after : List Declaration}
    {declaration : Declaration}
    (last : LastAliases store post outside below declaration after) :
    lastDeclared (·.paths) post = declaration.paths := by
  obtain ⟨aliases, declared⟩ := Option.isSome_iff_exists.mp last.declares
  rw [last.lastDeclared_eq last.later, lastDeclared_append,
    lastDeclared_singleton, declared, Option.some_or, Option.some_or]

end ExportAudit.Config

namespace ExportAudit.Project

open Config

variable {store : Store} {location : Location} {project : Project}

/-- The options of a project are those that its description comes to. -/
theorem exists_read_of_load (loaded : load store location = .ok project) :
    ∃ config, read store location = .ok config ∧
      project.baseUrl = config.options.baseUrl ∧
      project.paths = config.options.paths.getD [] ∧
      project.pathsBase = (config.options.pathsBase.or
        config.options.baseUrl).getD location.parent := by
  obtain ⟨config, given, made⟩ := bind_eq_ok.mp loaded
  obtain ⟨modules, _, done⟩ := bind_eq_ok.mp (mapError_eq_ok.mp made)
  cases done
  refine ⟨config, given, rfl, rfl, ?_⟩
  rw [Option.orElse_eq_or]

/-- The aliases of a project lie where the last declaration of aliases puts
them: at the base URL that this description declares or inherits, and without
one in its directory.  Unless a base URL is declared after it, or is only
declared by descriptions that it does not extend, this is the base URL of the
project, and the directory of that description if the project has none. -/
theorem load_pathsBase (loaded : load store location = .ok project) :
    ∃ post, PostOrder store location post ∧
      project.baseUrl = lastDeclared (·.baseUrl) post ∧
      ((∀ declaration ∈ post, declaration.paths = none) →
        project.paths = [] ∧
          project.pathsBase = project.baseUrl.getD location.parent) ∧
      ((∃ declaration ∈ post, declaration.paths.isSome) →
        ∃ outside below declaration after,
          LastAliases store post outside below declaration after ∧
          declaration.paths = some project.paths ∧
          project.pathsBase =
            (lastDeclared (·.baseUrl) (below ++ [declaration])).getD
              declaration.directory ∧
          ((∀ other ∈ after, other.baseUrl = none) →
            ((∃ other ∈ below ++ [declaration], other.baseUrl.isSome) ∨
              ∀ other ∈ outside, other.baseUrl = none) →
            project.pathsBase =
              project.baseUrl.getD declaration.directory)) := by
  obtain ⟨config, given, baseUrl, paths, base⟩ := exists_read_of_load loaded
  obtain ⟨post, ordered, merges, lies⟩ :=
    exists_postOrder_of_readFrom store [] location config given
  refine ⟨post, ordered, baseUrl.trans merges.baseUrl, ?_⟩
  generalize config.options.pathsBase = pathsBase at lies base
  cases lies with
  | none absent =>
      constructor
      · intro _
        rw [paths, base, baseUrl, merges.paths, lastDeclared_eq_none.mpr absent]
        exact ⟨rfl, rfl⟩
      · rintro ⟨declaration, member, declares⟩
        simp [absent declaration member] at declares
  | @some outside below after declaration last =>
      constructor
      · intro absent
        have member : declaration ∈ post := by simp [last.split]
        have declares := last.declares
        simp [absent declaration member] at declares
      · intro _
        refine ⟨outside, below, declaration, after, last, ?_, base, ?_⟩
        · obtain ⟨aliases, declared⟩ :=
            Option.isSome_iff_exists.mp last.declares
          rw [paths, merges.paths, last.paths_eq, declared, Option.getD_some]
        · intro later inherits
          rw [base, baseUrl, merges.baseUrl, last.lastDeclared_eq later,
            Option.some_or, Option.getD_some]
          rcases inherits with ⟨other, member, declares⟩ | absent
          · have found : lastDeclared (·.baseUrl) (below ++ [declaration]) ≠
                none := by
              rw [ne_eq, lastDeclared_eq_none]
              intro absent
              simp [absent other member] at declares
            obtain ⟨url, counts⟩ := Option.ne_none_iff_exists'.mp found
            rw [counts, Option.some_or]
          · rw [lastDeclared_eq_none.mpr absent, Option.or_none]

/-! ## A base URL that is set after the aliases -/

/-- A description inherits aliases and sets the base URL itself. -/
def inheritedAliases : Store :=
  (Store.empty.write ⟨["config", "b.json"]⟩ (.ofText
    "\x7b\"compilerOptions\":\x7b\"paths\":\x7b\"x\":[\"y\"]\x7d\x7d\x7d")).write
      ⟨["a.json"]⟩ (.ofText
        "\x7b\"extends\":\"./config/b.json\",\"files\":[],\"compilerOptions\":\x7b\"baseUrl\":\"src\"\x7d\x7d")

/-- The aliases that are declared. -/
def declaredAliases : List (WideText × List WideText) := [("x", ["y"])]

/-- The description with the aliases. -/
def aliasDeclaration : Declaration :=
  ⟨⟨["config", "b.json"]⟩, [("compilerOptions", .object
    [("paths", .object [("x", .array [.string "y"])])])],
    ⟨none, none, none, some declaredAliases⟩⟩

/-- The description with the base URL. -/
def baseDeclaration : Declaration :=
  ⟨⟨["a.json"]⟩, [("extends", .string "./config/b.json"),
    ("files", .array []),
    ("compilerOptions", .object [("baseUrl", .string "src")])],
    ⟨none, none, some "src", none⟩⟩

theorem holds_inheritedAliases :
    Holds inheritedAliases ⟨["config", "b.json"]⟩ aliasDeclaration.members ∧
    Holds inheritedAliases ⟨["a.json"]⟩ baseDeclaration.members :=
  ⟨⟨_, text?_ofText rfl, by cbv⟩, ⟨_, text?_ofText rfl, by cbv⟩⟩

theorem extendedConfig?_inheritedAliases :
    extendedConfig? inheritedAliases .root "./config/b.json" =
      .ok (some ⟨["config", "b.json"]⟩) :=
  extendedConfig?_of_complete (by decide) (by decide) (by decide) (by decide)

theorem postOrder_inheritedAliases :
    PostOrder inheritedAliases ⟨["config", "b.json"]⟩ [aliasDeclaration] ∧
    PostOrder inheritedAliases ⟨["a.json"]⟩
      [aliasDeclaration, baseDeclaration] := by
  obtain ⟨above, below⟩ := holds_inheritedAliases
  have first : PostOrder inheritedAliases ⟨["config", "b.json"]⟩
      [aliasDeclaration] := .node above rfl rfl .nil
  exact ⟨first, .node below rfl rfl
    (.followed extendedConfig?_inheritedAliases first .nil)⟩

theorem exists_load_inheritedAliases :
    ∃ project, load inheritedAliases ⟨["a.json"]⟩ = .ok project := by
  have ordered := postOrder_inheritedAliases.2
  have located : ∀ declaration ∈ [aliasDeclaration, baseDeclaration],
      declaration.IsLocated := by
    simp only [List.forall_mem_cons, Declaration.IsLocated]
    decide
  obtain ⟨config, given⟩ := ordered.exists_read_iff.mpr located
  obtain ⟨post, also, describes⟩ :=
    exists_postOrder_of_readFrom inheritedAliases [] _ config given
  cases also.unique ordered
  have files : config.files = some [] := describes.merges.files
  have included : config.included = none := describes.merges.included
  have collected : ¬ Fails (ofConfig inheritedAliases ⟨["a.json"]⟩ config) := by
    rw [fails_ofConfig, includePatterns, files, included]
    simp
  obtain ⟨project, made⟩ := exists_ok_iff.mpr collected
  exact ⟨project, bind_eq_ok.mpr ⟨config, given, mapError_eq_ok.mpr made⟩⟩

/-- The aliases stay beside the description that declares them, although the
project has a base URL. -/
theorem load_inheritedAliases :
    ∃ project, load inheritedAliases ⟨["a.json"]⟩ = .ok project ∧
      project.baseUrl = some ⟨["src"]⟩ ∧ project.paths = declaredAliases ∧
      project.pathsBase = ⟨["config"]⟩ := by
  obtain ⟨project, loaded⟩ := exists_load_inheritedAliases
  obtain ⟨post, ordered, baseUrl, _, lies⟩ := load_pathsBase loaded
  cases ordered.unique postOrder_inheritedAliases.2
  obtain ⟨outside, below, declaration, after, last, paths, base, _⟩ :=
    lies ⟨aliasDeclaration, by simp, rfl⟩
  have listed : declaration ∈ [aliasDeclaration, baseDeclaration] := by
    rw [last.split]
    simp
  have same : declaration = aliasDeclaration := by
    have declares := last.declares
    rcases List.mem_pair.mp listed with rfl | rfl
    · rfl
    · cases declares
  subst same
  rw [last.ordered.unique postOrder_inheritedAliases.1] at base
  exact ⟨project, loaded, baseUrl.trans (by decide), (Option.some.inj paths).symm,
    base.trans (by decide)⟩

end ExportAudit.Project
