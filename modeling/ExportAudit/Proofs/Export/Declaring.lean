import ExportAudit.Export.Binding
import ExportAudit.Proofs.Syntax.Walk

/-!
# What declarations bind

The names that a pattern or a declaration binds are described by relations with
one case for each form.  The names that are listed for it are exactly these, and
the first that is listed of several with one name is told by the order of the
nodes in the tree.
-/

namespace ExportAudit

/-! ## The first of a list -/

/-- A value is the first of a list that has a property. -/
def IsFirst {α : Type} (holds : α → Prop) (values : List α) (value : α) : Prop :=
  ∃ before after, values = before ++ value :: after ∧ holds value ∧
    ∀ other ∈ before, ¬ holds other

section IsFirst

variable {α β : Type} {holds : α → Prop} {values : List α} {value : α}

theorem isFirst_iff_find? [DecidablePred holds] :
    IsFirst holds values value ↔
      values.find? (fun value => decide (holds value)) = some value := by
  rw [List.find?_eq_some_iff_append]
  constructor
  · rintro ⟨before, after, split, has, none⟩
    exact ⟨decide_eq_true has, before, after, split, fun other member => by
      simpa using none other member⟩
  · rintro ⟨has, before, after, split, none⟩
    exact ⟨before, after, split, of_decide_eq_true has, fun other member => by
      simpa using none other member⟩

theorem IsFirst.mem_and_holds (first : IsFirst holds values value) :
    value ∈ values ∧ holds value := by
  obtain ⟨before, after, rfl, has, _⟩ := first
  exact ⟨List.mem_append_right _ (List.mem_cons_self ..), has⟩

/-- Where some value has a property, there is a first one. -/
theorem exists_isFirst (member : value ∈ values) (has : holds value) :
    ∃ first, IsFirst holds values first := by
  classical
  have found : (values.find? fun value => decide (holds value)).isSome := by
    rw [List.find?_isSome]
    exact ⟨value, member, decide_eq_true has⟩
  obtain ⟨first, isFirst⟩ := Option.isSome_iff_exists.mp found
  exact ⟨first, isFirst_iff_find?.mpr isFirst⟩

theorem isFirst_filter {keep : α → Bool} :
    IsFirst holds (values.filter keep) value ↔
      IsFirst (fun value => keep value = true ∧ holds value) values value := by
  classical
  rw [isFirst_iff_find?, isFirst_iff_find?, List.find?_filter]
  simp

/-- The first of what the values of a list give is the first given by the first
value that gives one. -/
theorem isFirst_flatMap {holds : β → Prop} {give : α → List β} {given : β} :
    IsFirst holds (values.flatMap give) given ↔
      ∃ value, IsFirst (fun value => ∃ given ∈ give value, holds given)
        values value ∧ IsFirst holds (give value) given := by
  classical
  have nothing : ∀ value, (give value).find? (fun given =>
      decide (holds given)) = none ↔ ¬ ∃ given ∈ give value, holds given := by
    simp
  rw [isFirst_iff_find?, List.find?_flatMap, List.findSome?_eq_some_iff]
  simp only [nothing, ← isFirst_iff_find?]
  constructor
  · rintro ⟨before, value, after, split, inside, none⟩
    exact ⟨value,
      ⟨before, after, split, ⟨given, inside.mem_and_holds⟩, none⟩, inside⟩
  · rintro ⟨value, ⟨before, after, split, _, none⟩, inside⟩
    exact ⟨before, value, after, split, inside, none⟩

/-- Where all values of a list have the property, the first is the head. -/
theorem isFirst_iff_head? (all : ∀ value ∈ values, holds value) :
    IsFirst holds values value ↔ values.head? = some value := by
  classical
  rw [isFirst_iff_find?]
  cases values with
  | nil => rfl
  | cons head rest =>
      rw [List.find?_cons_of_pos, List.head?_cons]
      exact decide_eq_true (all head (List.mem_cons_self ..))

theorem isFirst_map {holds : β → Prop} {give : α → β} {given : β} :
    IsFirst holds (values.map give) given ↔
      ∃ value, IsFirst (fun value => holds (give value)) values value ∧
        give value = given := by
  classical
  rw [isFirst_iff_find?, List.find?_map, Option.map_eq_some_iff]
  simp only [isFirst_iff_find?, Function.comp_def]

end IsFirst

/-! ## Patterns -/

/-- A pattern binds a name: it is the name, or the part of a value that it takes
goes into a pattern that binds the name. -/
inductive PatternBinds (text : Node → String) : Node → String → Prop where
  | name {pattern : Node}
      (kind : pattern.kind = "identifier" ∨
        pattern.kind = "shorthand_property_identifier_pattern") :
      PatternBinds text pattern (text pattern)
  | pair {pattern value : Node} {name : String}
      (kind : pattern.kind = "pair_pattern")
      (field : pattern.childByField "value" = some value)
      (binds : PatternBinds text value name) : PatternBinds text pattern name
  | defaulted {pattern target : Node} {name : String}
      (kind : pattern.kind = "object_assignment_pattern" ∨
        pattern.kind = "assignment_pattern")
      (field : pattern.childByField "left" = some target)
      (binds : PatternBinds text target name) : PatternBinds text pattern name
  | part {pattern part : Node} {name : String}
      (kind : pattern.kind = "object_pattern" ∨
        pattern.kind = "array_pattern" ∨ pattern.kind = "rest_pattern")
      (member : part ∈ pattern.namedChildren)
      (binds : PatternBinds text part name) : PatternBinds text pattern name

theorem fieldPatternNames_eq (text : Node → String) (field : String)
    (children : List Node) :
    fieldPatternNames text field children =
      match children.find? fun child => child.field = some field with
      | some child => patternNames text child
      | none => [] := by
  induction children with
  | nil => rfl
  | cons child rest ih =>
      rw [fieldPatternNames]
      split
      · next fills => simp [fills]
      · next other => simp [other, ih]

theorem namedPatternNames_eq (text : Node → String) (children : List Node) :
    namedPatternNames text children =
      (children.filter (·.isNamed)).flatMap (patternNames text) := by
  induction children with
  | nil => rfl
  | cons child rest ih =>
      rw [namedPatternNames, ih]
      cases named : child.isNamed with
      | true => simp [named]
      | false => simp [named]

theorem patternNames_eq (text : Node → String) (pattern : Node) :
    patternNames text pattern =
      if pattern.kind = "identifier" ∨
          pattern.kind = "shorthand_property_identifier_pattern" then
        [text pattern]
      else if pattern.kind = "pair_pattern" then
        match pattern.childByField "value" with
        | some value => patternNames text value
        | none => []
      else if pattern.kind = "object_assignment_pattern" ∨
          pattern.kind = "assignment_pattern" then
        match pattern.childByField "left" with
        | some target => patternNames text target
        | none => []
      else if pattern.kind = "object_pattern" ∨
          pattern.kind = "array_pattern" ∨ pattern.kind = "rest_pattern" then
        pattern.namedChildren.flatMap (patternNames text)
      else [] := by
  cases pattern
  rw [patternNames, fieldPatternNames_eq, fieldPatternNames_eq,
    namedPatternNames_eq]
  rfl

/-- The recursion of the names is on children that fill a field or are parts, so
the induction is on the size of the pattern. -/
theorem patternBinds_of_mem {text : Node → String} (pattern : Node)
    {name : String} (listed : name ∈ patternNames text pattern) :
    PatternBinds text pattern name := by
  rw [patternNames_eq] at listed
  split at listed
  · next kind =>
    rw [List.mem_singleton] at listed
    exact listed ▸ .name kind
  split at listed
  · next kind =>
    split at listed
    · next value field =>
      have member := List.mem_of_find?_eq_some field
      exact .pair kind field (patternBinds_of_mem value listed)
    · cases listed
  split at listed
  · next kind =>
    split at listed
    · next target field =>
      have member := List.mem_of_find?_eq_some field
      exact .defaulted kind field (patternBinds_of_mem target listed)
    · cases listed
  split at listed
  · next kind =>
    obtain ⟨part, member, listed⟩ := List.mem_flatMap.mp listed
    have child : part ∈ pattern.children := (List.mem_filter.mp member).1
    exact .part kind member (patternBinds_of_mem part listed)
  · cases listed
termination_by sizeOf pattern
decreasing_by all_goals exact Node.sizeOf_lt_of_mem ‹_›

/-- The names listed for a pattern are those that it binds. -/
theorem mem_patternNames {text : Node → String} {pattern : Node}
    {name : String} :
    name ∈ patternNames text pattern ↔ PatternBinds text pattern name := by
  constructor
  · exact patternBinds_of_mem pattern
  · intro binds
    induction binds with
    | name kind =>
        rw [patternNames_eq, if_pos kind]
        exact List.mem_singleton_self _
    | pair kind field _ ih =>
        rw [patternNames_eq]
        simp [kind, field, ih]
    | defaulted kind field _ ih =>
        rw [patternNames_eq]
        rcases kind with kind | kind <;> simp [kind, field, ih]
    | part kind member _ ih =>
        rw [patternNames_eq]
        have listed := List.mem_flatMap.mpr ⟨_, member, ih⟩
        rcases kind with kind | kind | kind <;> simpa [kind] using listed

/-! ## Declarations -/

namespace Module

/-- A declaration that stands for itself binds a name: in the pattern of one of
its declarators, or as its own name.  Of a dotted name it binds the first part.
A declaration that is named by a string binds nothing. -/
inductive DeclaresDirectly (module : Module) (declaration : Node) :
    String → Node → ExportKind → Prop where
  | declarator {declarator pattern : Node} {name : String}
      (kind : ExportKind.ofDeclaration? declaration.kind =
        some .variableBinding)
      (member : declarator ∈ declaration.namedChildren)
      (isDeclarator : declarator.kind = "variable_declarator")
      (field : declarator.childByField "name" = some pattern)
      (binds : PatternBinds module.text pattern name) :
      DeclaresDirectly module declaration name declarator .variableBinding
  | own {nameNode : Node} {kind : ExportKind}
      (isKind : ExportKind.ofDeclaration? declaration.kind = some kind)
      (notVariable : kind ≠ .variableBinding)
      (field : declaration.childByField "name" = some nameNode)
      (notString : nameNode.kind ≠ "string")
      (undotted : nameNode.kind ≠ "nested_identifier") :
      DeclaresDirectly module declaration (module.text nameNode) declaration
        kind
  | dotted {nameNode : Node} {kind : ExportKind}
      (isKind : ExportKind.ofDeclaration? declaration.kind = some kind)
      (notVariable : kind ≠ .variableBinding)
      (field : declaration.childByField "name" = some nameNode)
      (isDotted : nameNode.kind = "nested_identifier") :
      DeclaresDirectly module declaration
        (String.ofList (Text.trim
          ((module.text nameNode).toList.takeWhile (· != '.'))))
        declaration kind

/-- A declaration binds a name: directly, or it announces another declaration
that binds it.  Told are the node that binds the name and what it is. -/
inductive Declares (module : Module) :
    Node → String → Node → ExportKind → Prop where
  | direct {declaration node : Node} {name : String} {kind : ExportKind}
      (declares : module.DeclaresDirectly declaration name node kind) :
      Declares module declaration name node kind
  | wrapped {declaration inner node : Node} {name : String} {kind : ExportKind}
      (isStatement : declaration.kind = "expression_statement")
      (head : declaration.namedChildren.head? = some inner)
      (isSpace : inner.kind = "internal_module")
      (declares : module.DeclaresDirectly inner name node kind) :
      Declares module declaration name node kind
  | ambient {declaration inner node : Node} {name : String} {kind : ExportKind}
      (isAmbient : declaration.kind = "ambient_declaration")
      (member : inner ∈ declaration.namedChildren)
      (declares : Declares module inner name node kind) :
      Declares module declaration name node kind

/-- A declaration binds a name. -/
def Announces (module : Module) (declaration : Node) (name : String) : Prop :=
  ∃ node kind, module.Declares declaration name node kind

/-- What a name is that a declaration binds.  Of several declarations that are
announced together, the first that binds the name tells. -/
inductive AnnouncesAs (module : Module) : Node → String → ExportKind → Prop where
  | plain {declaration node : Node} {name : String} {kind : ExportKind}
      (notAmbient : declaration.kind ≠ "ambient_declaration")
      (declares : module.Declares declaration name node kind) :
      AnnouncesAs module declaration name kind
  | ambient {declaration inner : Node} {name : String} {kind : ExportKind}
      (isAmbient : declaration.kind = "ambient_declaration")
      (first : IsFirst (module.Announces · name) declaration.namedChildren
        inner)
      (announces : AnnouncesAs module inner name kind) :
      AnnouncesAs module declaration name kind

variable {module : Module} {declaration node : Node} {name : String}
  {kind : ExportKind} {declared : Declared}

theorem mem_declaratorNames :
    declared ∈ module.declaratorNames declaration ↔
      ∃ declarator ∈ declaration.namedChildren,
        declarator.kind = "variable_declarator" ∧
        ∃ pattern, declarator.childByField "name" = some pattern ∧
          PatternBinds module.text pattern declared.name ∧
          declared.node = declarator ∧ declared.kind = .variableBinding := by
  simp only [declaratorNames, List.mem_flatMap, List.mem_filter,
    decide_eq_true_eq, and_assoc]
  refine exists_congr fun declarator => and_congr_right fun _ =>
    and_congr_right fun _ => ?_
  cases field : declarator.childByField "name" with
  | none => simp
  | some pattern =>
      simp only [List.mem_map, mem_patternNames, Option.some.injEq,
        exists_eq_left']
      constructor
      · rintro ⟨name, binds, rfl⟩
        exact ⟨binds, rfl, rfl⟩
      · rintro ⟨binds, rfl, isVariable⟩
        exact ⟨declared.name, binds, isVariable ▸ rfl⟩

theorem mem_ownName :
    declared ∈ module.ownName declaration kind ↔
      ∃ nameNode, declaration.childByField "name" = some nameNode ∧
        nameNode.kind ≠ "string" ∧ declared =
          if nameNode.kind = "nested_identifier" then
            ⟨String.ofList (Text.trim
              ((module.text nameNode).toList.takeWhile (· != '.'))),
              declaration, kind⟩
          else ⟨module.text nameNode, declaration, kind⟩ := by
  unfold ownName
  cases declaration.childByField "name" with
  | none => simp
  | some nameNode =>
      by_cases string : nameNode.kind = "string"
      · simp [string]
      · simp only [string, if_false, Option.some.injEq, exists_eq_left']
        split <;> simp [string]

theorem directNames_of_variable
    (isVariable : ExportKind.ofDeclaration? declaration.kind =
      some .variableBinding) :
    module.directNames declaration = module.declaratorNames declaration := by
  rw [directNames, isVariable]

theorem directNames_of_ne_variable
    (isKind : ExportKind.ofDeclaration? declaration.kind = some kind)
    (notVariable : kind ≠ .variableBinding) :
    module.directNames declaration = module.ownName declaration kind := by
  rw [directNames, isKind]
  split
  · contradiction
  · next same =>
    cases same
    exact absurd rfl notVariable
  · next same =>
    cases same
    rfl

theorem mem_directNames :
    ⟨name, node, kind⟩ ∈ module.directNames declaration ↔
      module.DeclaresDirectly declaration name node kind := by
  constructor
  · intro listed
    cases isKind : ExportKind.ofDeclaration? declaration.kind with
    | none => simp [directNames, isKind] at listed
    | some found =>
        by_cases notVariable : found = .variableBinding
        · subst notVariable
          rw [directNames_of_variable isKind, mem_declaratorNames] at listed
          obtain ⟨declarator, member, isDeclarator, pattern, field, binds, same,
            isVariable⟩ := listed
          cases same
          cases isVariable
          exact .declarator isKind member isDeclarator field binds
        · rw [directNames_of_ne_variable isKind notVariable, mem_ownName]
            at listed
          obtain ⟨nameNode, field, notString, same⟩ := listed
          split at same
          · next isDotted =>
            obtain ⟨rfl, rfl, rfl⟩ := Declared.mk.inj same
            exact .dotted isKind notVariable field isDotted
          · next undotted =>
            obtain ⟨rfl, rfl, rfl⟩ := Declared.mk.inj same
            exact .own isKind notVariable field notString undotted
  · intro declares
    cases declares with
    | declarator isKind member isDeclarator field binds =>
        rw [directNames_of_variable isKind, mem_declaratorNames]
        exact ⟨_, member, isDeclarator, _, field, binds, rfl, rfl⟩
    | own isKind notVariable field notString undotted =>
        rw [directNames_of_ne_variable isKind notVariable, mem_ownName]
        exact ⟨_, field, notString, by rw [if_neg undotted]⟩
    | dotted isKind notVariable field isDotted =>
        rw [directNames_of_ne_variable isKind notVariable, mem_ownName]
        exact ⟨_, field, by simp [isDotted], by rw [if_pos isDotted]⟩

/-- The names that one declaration binds directly are all of one kind. -/
theorem DeclaresDirectly.kind_eq
    (declares : module.DeclaresDirectly declaration name node kind) :
    ExportKind.ofDeclaration? declaration.kind = some kind := by
  cases declares with
  | declarator isKind => exact isKind
  | own isKind => exact isKind
  | dotted isKind => exact isKind

theorem declaredNamesAll_eq (children : List Node) :
    module.declaredNamesAll children =
      (children.filter (·.isNamed)).flatMap module.declaredNames := by
  induction children with
  | nil => rfl
  | cons child rest ih =>
      rw [declaredNamesAll, ih]
      cases named : child.isNamed with
      | true => simp [named]
      | false => simp [named]

theorem declaredNames_of_ambient
    (isAmbient : declaration.kind = "ambient_declaration") :
    module.declaredNames declaration =
      declaration.namedChildren.flatMap module.declaredNames := by
  cases declaration
  rw [declaredNames, if_pos isAmbient, declaredNamesAll_eq]
  rfl

theorem declaredNames_of_statement
    (isStatement : declaration.kind = "expression_statement") :
    module.declaredNames declaration =
      match declaration.namedChildren.head? with
      | some inner =>
          if inner.kind = "internal_module" then module.directNames inner
          else []
      | none => [] := by
  cases declaration with
  | mk kind isNamed isMissing start stop field children =>
      obtain rfl : kind = "expression_statement" := isStatement
      have children_eq : Node.namedChildren ⟨"expression_statement", isNamed,
          isMissing, start, stop, field, children⟩ =
        children.filter (·.isNamed) := rfl
      rw [declaredNames, if_neg (by decide), if_pos rfl, children_eq]
      cases children.filter (·.isNamed) with
      | nil => rfl
      | cons inner rest => rfl

theorem declaredNames_of_direct
    (notAmbient : declaration.kind ≠ "ambient_declaration")
    (notStatement : declaration.kind ≠ "expression_statement") :
    module.declaredNames declaration = module.directNames declaration := by
  cases declaration
  rw [declaredNames, if_neg notAmbient, if_neg notStatement]

theorem declares_of_mem (declaration : Node)
    (listed : ⟨name, node, kind⟩ ∈ module.declaredNames declaration) :
    module.Declares declaration name node kind := by
  by_cases isAmbient : declaration.kind = "ambient_declaration"
  · rw [declaredNames_of_ambient isAmbient] at listed
    obtain ⟨inner, member, listed⟩ := List.mem_flatMap.mp listed
    have child : inner ∈ declaration.children := (List.mem_filter.mp member).1
    exact .ambient isAmbient member (declares_of_mem inner listed)
  by_cases isStatement : declaration.kind = "expression_statement"
  · rw [declaredNames_of_statement isStatement] at listed
    split at listed
    · next inner head =>
      split at listed
      · next isSpace =>
        exact .wrapped isStatement head isSpace (mem_directNames.mp listed)
      · cases listed
    · cases listed
  · rw [declaredNames_of_direct isAmbient isStatement] at listed
    exact .direct (mem_directNames.mp listed)
termination_by sizeOf declaration
decreasing_by exact Node.sizeOf_lt_of_mem child

/-- What is wrapped or announced by other declarations is no declaration that
stands for itself. -/
theorem DeclaresDirectly.declaration_kind
    (declares : module.DeclaresDirectly declaration name node kind) :
    declaration.kind ≠ "ambient_declaration" ∧
      declaration.kind ≠ "expression_statement" := by
  constructor
  all_goals
    intro other
    have isKind := declares.kind_eq
    rw [other] at isKind
    cases isKind

/-- The names listed for a declaration are those that it binds. -/
theorem mem_declaredNames :
    ⟨name, node, kind⟩ ∈ module.declaredNames declaration ↔
      module.Declares declaration name node kind := by
  constructor
  · exact declares_of_mem declaration
  · intro declares
    induction declares with
    | direct declares =>
        obtain ⟨notAmbient, notStatement⟩ := declares.declaration_kind
        rw [declaredNames_of_direct notAmbient notStatement]
        exact mem_directNames.mpr declares
    | wrapped isStatement head isSpace declares =>
        rw [declaredNames_of_statement isStatement, head]
        simpa [isSpace] using mem_directNames.mpr declares
    | ambient isAmbient member _ ih =>
        rw [declaredNames_of_ambient isAmbient]
        exact List.mem_flatMap.mpr ⟨_, member, ih⟩

theorem announces_iff :
    (∃ declared ∈ module.declaredNames declaration, declared.name = name) ↔
      module.Announces declaration name := by
  constructor
  · rintro ⟨⟨name, node, kind⟩, listed, rfl⟩
    exact ⟨node, kind, mem_declaredNames.mp listed⟩
  · rintro ⟨node, kind, declares⟩
    exact ⟨_, mem_declaredNames.mpr declares, rfl⟩

/-- The names that a declaration binds are all of one kind, unless it announces
several others. -/
theorem Declares.kind_unique {otherName : String} {otherNode : Node}
    {otherKind : ExportKind}
    (declares : module.Declares declaration name node kind)
    (others : module.Declares declaration otherName otherNode otherKind)
    (notAmbient : declaration.kind ≠ "ambient_declaration") :
    kind = otherKind := by
  cases declares with
  | direct declares =>
      cases others with
      | direct others =>
          exact Option.some.inj (declares.kind_eq.symm.trans others.kind_eq)
      | wrapped isStatement =>
          exact absurd isStatement declares.declaration_kind.2
      | ambient isAmbient => exact absurd isAmbient notAmbient
  | wrapped isStatement head _ declares =>
      cases others with
      | direct others => exact absurd isStatement others.declaration_kind.2
      | wrapped _ sameHead _ others =>
          cases head.symm.trans sameHead
          exact Option.some.inj (declares.kind_eq.symm.trans others.kind_eq)
      | ambient isAmbient => exact absurd isAmbient notAmbient
  | ambient isAmbient => exact absurd isAmbient notAmbient

theorem announcesAs_of_isFirst (declaration : Node) {declared : Declared}
    (first : IsFirst (·.name = name) (module.declaredNames declaration)
      declared) :
    module.AnnouncesAs declaration name declared.kind := by
  by_cases isAmbient : declaration.kind = "ambient_declaration"
  · rw [declaredNames_of_ambient isAmbient, isFirst_flatMap] at first
    simp only [announces_iff] at first
    obtain ⟨inner, firstInner, first⟩ := first
    have child : inner ∈ declaration.children :=
      (List.mem_filter.mp firstInner.mem_and_holds.1).1
    exact .ambient isAmbient firstInner (announcesAs_of_isFirst inner first)
  · -- All names of the declaration are of one kind, so any of them tells.
    obtain ⟨listed, rfl⟩ := first.mem_and_holds
    exact .plain isAmbient (mem_declaredNames.mp listed)
termination_by sizeOf declaration
decreasing_by exact Node.sizeOf_lt_of_mem child

/-- What a name is that a declaration binds is told by the first of the names
listed for the declaration. -/
theorem announcesAs_iff :
    module.AnnouncesAs declaration name kind ↔
      ∃ declared, IsFirst (·.name = name) (module.declaredNames declaration)
        declared ∧ declared.kind = kind := by
  constructor
  · intro announces
    induction announces with
    | @plain declaration node name kind notAmbient declares =>
        have found : ∃ declared, IsFirst (·.name = name)
            (module.declaredNames declaration) declared :=
          exists_isFirst (mem_declaredNames.mpr declares) rfl
        obtain ⟨declared, first⟩ := found
        have listed := mem_declaredNames.mp first.mem_and_holds.1
        exact ⟨declared, first, listed.kind_unique declares notAmbient⟩
    | ambient isAmbient first _ ih =>
        obtain ⟨declared, inner, isKind⟩ := ih
        rw [declaredNames_of_ambient isAmbient]
        refine ⟨declared, isFirst_flatMap.mpr ⟨_, ?_, inner⟩, isKind⟩
        simpa only [announces_iff] using first
  · rintro ⟨declared, first, rfl⟩
    exact announcesAs_of_isFirst declaration first

theorem DeclaresDirectly.exists_occurs {root : Node} {parent : Option Node}
    (declares : module.DeclaresDirectly declaration name node kind)
    (occurs : root.Occurs parent declaration) :
    ∃ parent, root.Occurs parent node := by
  cases declares with
  | declarator _ member =>
      exact ⟨_, occurs.child (List.mem_filter.mp member).1⟩
  | own => exact ⟨parent, occurs⟩
  | dotted => exact ⟨parent, occurs⟩

/-- The node that binds a name occurs in every tree in which the declaration
does. -/
theorem Declares.exists_occurs {root : Node} {parent : Option Node}
    (declares : module.Declares declaration name node kind)
    (occurs : root.Occurs parent declaration) :
    ∃ parent, root.Occurs parent node := by
  induction declares generalizing parent with
  | direct declares => exact declares.exists_occurs occurs
  | wrapped _ head _ declares =>
      have member := List.mem_of_head? head
      exact declares.exists_occurs (occurs.child (List.mem_filter.mp member).1)
  | ambient _ member _ ih =>
      exact ih (occurs.child (List.mem_filter.mp member).1)

end Module

end ExportAudit
