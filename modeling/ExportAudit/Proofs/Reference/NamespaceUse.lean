import ExportAudit.Proofs.Failure.Propagation
import ExportAudit.Proofs.Syntax.Walk
import ExportAudit.Reference.Namespace

/-!
# Uses of an imported namespace

`Module.Accesses` lists the positions in which an occurrence of an alias uses
known names.  A namespace is used as a whole if an occurrence of its alias
stands anywhere else, and otherwise in the names so accessed.
-/

namespace ExportAudit

/-- A found value that is put to a test before it is used. -/
theorem bind_ite_eq_some {α β : Type} {found : Option α} {test : α → Prop}
    [DecidablePred test] {use : α → Option β} {result : β} :
    (do
      let value ← found
      if test value then use value else none) = some result ↔
      ∃ value, found = some value ∧ test value ∧ use value = some result := by
  rw [Option.bind_eq_bind, Option.bind_eq_some_iff]
  apply exists_congr
  intro value
  apply and_congr_right
  intro _
  split
  · next passed => simp [passed]
  · next failed => simp [failed]

namespace Module

variable {module : Module}

/-! ## Names taken by a pattern -/

/-- An element of an object pattern takes a known name out of a value. -/
inductive Takes (module : Module) (element : Node) : String → Prop where
  | shorthand (kind : element.kind = "shorthand_property_identifier_pattern") :
      Takes module element (module.text element)
  | named {key : Node} (kind : element.kind = "pair_pattern")
      (fills : element.childByField "key" = some key)
      (plain : key.kind = "property_identifier") :
      Takes module element (module.text key)
  | quoted {key : Node} (kind : element.kind = "pair_pattern")
      (fills : element.childByField "key" = some key)
      (literal : key.kind = "string") :
      Takes module element (unquote (module.text key))
  | defaulted {left : Node} (kind : element.kind = "object_assignment_pattern")
      (fills : element.childByField "left" = some left)
      (plain : left.kind = "shorthand_property_identifier_pattern") :
      Takes module element (module.text left)

theorem takenName?_eq_some {element : Node} {name : String} :
    module.takenName? element = some name ↔ module.Takes element name := by
  unfold takenName?
  constructor
  · intro taken
    split at taken
    · next shorthand =>
      cases taken
      exact .shorthand shorthand
    · split at taken
      · next pair =>
        rw [Option.bind_eq_bind, Option.bind_eq_some_iff] at taken
        obtain ⟨key, fills, taken⟩ := taken
        split at taken
        · next plain =>
          cases taken
          exact .named pair fills plain
        · split at taken
          · next literal =>
            simp only [literalValue?, literal, if_true, Option.some.injEq]
              at taken
            subst taken
            exact .quoted pair fills literal
          · cases taken
      · split at taken
        · next assignment =>
          obtain ⟨left, fills, plain, taken⟩ := bind_ite_eq_some.mp taken
          cases taken
          exact .defaulted assignment fills plain
        · cases taken
  · intro takes
    cases takes with
    | shorthand kind => simp [kind]
    | named kind fills plain => simp [kind, fills, plain]
    | quoted kind fills literal => simp [kind, fills, literal, literalValue?]
    | defaulted kind fills plain => simp [kind, fills, plain]

/-- An object pattern takes known names out of a value, in order. -/
def TakesAll (module : Module) (pattern : Node) (names : List String) : Prop :=
  List.Forall₂ module.Takes
    (pattern.namedChildren.filter (·.kind ≠ "comment")) names

theorem takenNames?_eq_some {pattern : Node} {names : List String} :
    module.takenNames? pattern = some names ↔
      module.TakesAll pattern names := by
  unfold takenNames? TakesAll
  rw [optionMapM_eq_some]
  simp only [takenName?_eq_some]

/-! ## Attributable positions -/

/-- A child with the range and kind of a node fills a field of a parent. -/
theorem fills_iff {parent node : Node} {field : String} :
    fills parent field node = true ↔
      ∃ child, parent.childByField field = some child ∧
        child.sameAs node = true := by
  unfold fills
  cases parent.childByField field with
  | none => simp
  | some child => simp

theorem exists_filler {parent node child : Node} {field kind : String}
    (both : (fills parent field node && child.kind = kind) = true) :
    ∃ filler, parent.childByField field = some filler ∧
      filler.sameAs node = true ∧ child.kind = kind := by
  rw [Bool.and_eq_true, fills_iff, decide_eq_true_eq] at both
  obtain ⟨⟨filler, filled, same⟩, kind_eq⟩ := both
  exact ⟨filler, filled, same, kind_eq⟩

/-- A node stands below its parent where it accesses known names of what it
denotes. -/
inductive Accesses (module : Module) (parent node : Node) :
    List String → Prop where
  | member {object property : Node} (kind : parent.kind = "member_expression")
      (fills : parent.childByField "object" = some object)
      (same : object.sameAs node = true)
      (property_eq : parent.childByField "property" = some property)
      (plain : property.kind = "property_identifier") :
      Accesses module parent node [module.text property]
  | index {object index : Node} (kind : parent.kind = "subscript_expression")
      (fills : parent.childByField "object" = some object)
      (same : object.sameAs node = true)
      (index_eq : parent.childByField "index" = some index)
      (literal : index.kind = "string") :
      Accesses module parent node [unquote (module.text index)]
  | qualified {qualifier name : Node}
      (kind : parent.kind = "nested_type_identifier")
      (fills : parent.childByField "module" = some qualifier)
      (same : qualifier.sameAs node = true)
      (name_eq : parent.childByField "name" = some name) :
      Accesses module parent node [module.text name]
  | head {first last : Node} {between : List Node}
      (kind : parent.kind = "nested_identifier")
      (parts : parent.namedChildren = first :: (between ++ [last]))
      (same : first.sameAs node = true) :
      Accesses module parent node [module.text last]
  | taken {value pattern : Node} {names : List String}
      (kind : parent.kind = "variable_declarator")
      (fills : parent.childByField "value" = some value)
      (same : value.sameAs node = true)
      (pattern_eq : parent.childByField "name" = some pattern)
      (object : pattern.kind = "object_pattern")
      (takes : module.TakesAll pattern names) :
      Accesses module parent node names

theorem accesses_of_namesUsedIn? {parent node : Node} {names : List String}
    (used : module.namesUsedIn? parent node = some names) :
    module.Accesses parent node names := by
  unfold namesUsedIn? at used
  split at used
  · next member =>
    obtain ⟨property, property_eq, both, used⟩ := bind_ite_eq_some.mp used
    obtain ⟨object, fills, same, plain⟩ := exists_filler both
    cases used
    exact .member member fills same property_eq plain
  split at used
  · next subscript =>
    obtain ⟨index, index_eq, both, used⟩ := bind_ite_eq_some.mp used
    obtain ⟨object, fills, same, literal⟩ := exists_filler both
    cases used
    exact .index subscript fills same index_eq literal
  split at used
  · next qualified =>
    obtain ⟨name, name_eq, filled, used⟩ := bind_ite_eq_some.mp used
    obtain ⟨qualifier, fills, same⟩ := fills_iff.mp filled
    cases used
    exact .qualified qualified fills same name_eq
  split at used
  · next dotted =>
    split at used
    · next first second rest parts =>
      split at used
      · next same =>
        cases used
        have split : parent.namedChildren =
            first :: ((second :: rest).dropLast ++
              [(second :: rest).getLast (by simp)]) := by
          rw [parts, List.dropLast_concat_getLast]
        exact .head dotted split same
      · cases used
    · cases used
  split at used
  · next declarator =>
    obtain ⟨pattern, pattern_eq, both, used⟩ := bind_ite_eq_some.mp used
    obtain ⟨value, fills, same, object⟩ := exists_filler both
    exact .taken declarator fills same pattern_eq object
      (takenNames?_eq_some.mp used)
  · cases used

theorem namesUsedIn?_of_accesses {parent node : Node} {names : List String}
    (accesses : module.Accesses parent node names) :
    module.namesUsedIn? parent node = some names := by
  unfold namesUsedIn?
  cases accesses with
  | member kind fills same property_eq plain =>
      simp [kind, property_eq, plain, fills_iff.mpr ⟨_, fills, same⟩]
  | index kind fills same index_eq literal =>
      simp [kind, index_eq, literal, fills_iff.mpr ⟨_, fills, same⟩]
  | qualified kind fills same name_eq =>
      simp [kind, name_eq, fills_iff.mpr ⟨_, fills, same⟩]
  | @head first last between kind parts same =>
      cases between with
      | nil => simp [kind, parts, same]
      | cons second others => simp [kind, parts, same]
  | taken kind fills same pattern_eq object takes =>
      simp [kind, pattern_eq, object, fills_iff.mpr ⟨_, fills, same⟩,
        takenNames?_eq_some.mpr takes]

theorem namesUsedIn?_eq_some {parent node : Node} {names : List String} :
    module.namesUsedIn? parent node = some names ↔
      module.Accesses parent node names :=
  ⟨accesses_of_namesUsedIn?, namesUsedIn?_of_accesses⟩

/-! ## Uses of an alias -/

/-- A node is an occurrence of an alias other than its binding. -/
structure AliasUse (module : Module) (binding : Node) (parent : Option Node)
    (node : Node) : Prop where
  occurs : module.root.Occurs parent node
  kind : node.kind = "identifier" ∨
    node.kind = "shorthand_property_identifier"
  text : module.text node = module.text binding
  other : node.sameAs binding = false

/-- A node stands where it accesses known names. -/
def IsAttributable (module : Module) (parent : Option Node) (node : Node) :
    Prop :=
  ∃ enclosing names, parent = some enclosing ∧
    module.Accesses enclosing node names

variable {binding : Node} {visit : Visit}

theorem mem_aliasUses :
    visit ∈ module.aliasUses binding ↔
      module.AliasUse binding visit.parent visit.node := by
  unfold aliasUses
  rw [List.mem_filter, Node.mem_visits]
  simp only [Bool.and_eq_true, Bool.or_eq_true, decide_eq_true_eq,
    Bool.not_eq_true']
  constructor
  · intro found
    exact ⟨found.1, found.2.1.1, found.2.1.2, found.2.2⟩
  · intro use
    exact ⟨use.occurs, ⟨use.kind, use.text⟩, use.other⟩

theorem namesUsed?_eq_some {names : List String} :
    module.namesUsed? visit = some names ↔
      visit.node.kind ≠ "shorthand_property_identifier" ∧
        ∃ parent, visit.parent = some parent ∧
          module.Accesses parent visit.node names := by
  unfold namesUsed?
  split
  · next shorthand => simp [shorthand]
  · next identifier =>
    rw [Option.bind_eq_bind, Option.bind_eq_some_iff]
    simp only [namesUsedIn?_eq_some, ne_eq, identifier, not_false_eq_true,
      true_and]

/-- A namespace is used as a whole if an occurrence of its alias cannot be
attributed. -/
theorem namespaceUsage_eq_all {parent : Option Node} {node : Node}
    (use : module.AliasUse binding parent node)
    (unknown : ¬ module.IsAttributable parent node) :
    module.namespaceUsage binding = .all := by
  unfold namespaceUsage
  split
  · next names known =>
    rw [optionMapM_eq_some] at known
    have listed : ⟨parent, node⟩ ∈ module.aliasUses binding :=
      mem_aliasUses.mpr use
    obtain ⟨accessed, _, used⟩ := exists_of_forall₂_of_mem known listed
    obtain ⟨_, enclosing, encloses, accesses⟩ := namesUsed?_eq_some.mp used
    exact absurd ⟨enclosing, accessed, encloses, accesses⟩ unknown
  · rfl

/-- The usage of a namespace holds the names that an occurrence of its alias
accesses. -/
theorem mem_namespaceUsage {parent node : Node} {names : List String}
    {name : String} (use : module.AliasUse binding (some parent) node)
    (accesses : module.Accesses parent node names) (member : name ∈ names) :
    name ∈ module.namespaceUsage binding := by
  unfold namespaceUsage
  split
  · next all known =>
    rw [optionMapM_eq_some] at known
    have listed : ⟨some parent, node⟩ ∈ module.aliasUses binding :=
      mem_aliasUses.mpr use
    obtain ⟨accessed, found, used⟩ := exists_of_forall₂_of_mem known listed
    obtain ⟨_, enclosing, encloses, others⟩ := namesUsed?_eq_some.mp used
    cases encloses
    -- A position determines the names that are accessed there.
    have same := namesUsedIn?_of_accesses accesses
    rw [namesUsedIn?_of_accesses others, Option.some.injEq] at same
    subst same
    rw [Usage.mem_ofList, List.mem_flatten]
    exact ⟨accessed, found, member⟩
  · exact Usage.mem_all name

end Module

end ExportAudit
