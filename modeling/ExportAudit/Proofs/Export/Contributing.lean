import Mathlib.Data.List.Basic
import ExportAudit.Export
import ExportAudit.Proofs.Export.Declaring

/-!
# What export statements contribute

An export statement contributes the default, the names of a declaration, or the
names of its specifiers and namespaces.  A specifier stands together with the
local declarations of the name that it specifies, unless the statement names
another module.  The contributions that are listed are exactly these, and local
declarations are listed before their specifier.
-/

namespace ExportAudit

/-- The specifiers and the namespaces of an export statement, in order. -/
def Node.exportItems (statement : Node) : List Node :=
  statement.namedChildren.flatMap fun part =>
    if part.kind = "export_clause" then
      part.namedChildren.filter (·.kind = "export_specifier")
    else if part.kind = "namespace_export" then [part]
    else []

namespace Module

/-! ## Contributions as relations -/

/-- A specifier exports the name that it specifies, under that name or under
another one. -/
inductive Specifies (module : Module) (specifier : Node) :
    String → String → Prop where
  | plain {nameNode : Node}
      (field : specifier.childByField "name" = some nameNode)
      (noAlias : specifier.childByField "alias" = none) :
      Specifies module specifier (module.specifierName nameNode)
        (module.specifierName nameNode)
  | aliased {nameNode aliasNode : Node}
      (field : specifier.childByField "name" = some nameNode)
      (hasAlias : specifier.childByField "alias" = some aliasNode) :
      Specifies module specifier (module.specifierName nameNode)
        (module.specifierName aliasNode)

/-- A specifier or a namespace of an export statement contributes a name.  Told
are the node on whose line the contribution stands, and its kind. -/
inductive ItemContributes (module : Module) (statement item : Node) :
    String → Node → ExportKind → Prop where
  | behind {declaration node : Node} {specified exported : String}
      {kind : ExportKind} (isSpecifier : item.kind = "export_specifier")
      (specifies : module.Specifies item specified exported)
      (noSource : statement.childByField "source" = none)
      (top : declaration ∈ module.statements)
      (notExported : declaration.kind ≠ "export_statement")
      (declares : module.Declares declaration specified node kind) :
      ItemContributes module statement item exported node kind
  | specifier {specified exported : String}
      (isSpecifier : item.kind = "export_specifier")
      (specifies : module.Specifies item specified exported) :
      ItemContributes module statement item exported item .specifier
  | space {name : Node} (isSpace : item.kind = "namespace_export")
      (member : name ∈ item.namedChildren) :
      ItemContributes module statement item (module.specifierName name) item
        .namespaceReexport

/-- An export statement contributes a name. -/
inductive Contributes (module : Module) (statement : Node) :
    String → Node → ExportKind → Prop where
  | default (isDefault : exportsDefault statement = true) :
      Contributes module statement "default" statement .default
  | declared {declaration node : Node} {name : String} {kind : ExportKind}
      (notDefault : exportsDefault statement = false)
      (field : statement.childByField "declaration" = some declaration)
      (declares : module.Declares declaration name node kind) :
      Contributes module statement name node kind
  | item {item node : Node} {name : String} {kind : ExportKind}
      (notDefault : exportsDefault statement = false)
      (noDeclaration : statement.childByField "declaration" = none)
      (listed : item ∈ statement.exportItems)
      (contributes : module.ItemContributes statement item name node kind) :
      Contributes module statement name node kind

/-- The kind of the first contribution of a specifier or a namespace to a name.
The local declarations behind a specifier come before the specifier. -/
inductive ItemContributesAs (module : Module) (statement item : Node)
    (name : String) : ExportKind → Prop where
  | behind {declaration : Node} {specified : String} {kind : ExportKind}
      (isSpecifier : item.kind = "export_specifier")
      (specifies : module.Specifies item specified name)
      (noSource : statement.childByField "source" = none)
      (first : IsFirst (fun declaration =>
        declaration.kind ≠ "export_statement" ∧
          module.Announces declaration specified) module.statements declaration)
      (announces : module.AnnouncesAs declaration specified kind) :
      ItemContributesAs module statement item name kind
  | specifier {specified : String}
      (isSpecifier : item.kind = "export_specifier")
      (specifies : module.Specifies item specified name)
      (nothing : statement.childByField "source" = none →
        ∀ declaration ∈ module.statements,
          declaration.kind ≠ "export_statement" →
            ¬ module.Announces declaration specified) :
      ItemContributesAs module statement item name .specifier
  | space {nameNode : Node} (isSpace : item.kind = "namespace_export")
      (member : nameNode ∈ item.namedChildren)
      (isName : module.specifierName nameNode = name) :
      ItemContributesAs module statement item name .namespaceReexport

/-- The kind of the first contribution of an export statement to a name. -/
inductive ContributesAs (module : Module) (statement : Node) (name : String) :
    ExportKind → Prop where
  | default (isDefault : exportsDefault statement = true)
      (isName : name = "default") :
      ContributesAs module statement name .default
  | declared {declaration : Node} {kind : ExportKind}
      (notDefault : exportsDefault statement = false)
      (field : statement.childByField "declaration" = some declaration)
      (announces : module.AnnouncesAs declaration name kind) :
      ContributesAs module statement name kind
  | item {item : Node} {kind : ExportKind}
      (notDefault : exportsDefault statement = false)
      (noDeclaration : statement.childByField "declaration" = none)
      (first : IsFirst (fun item =>
        ∃ node kind, module.ItemContributes statement item name node kind)
        statement.exportItems item)
      (contributes : module.ItemContributesAs statement item name kind) :
      ContributesAs module statement name kind

/-! ## Local declarations -/

variable {module : Module} {statement item node specifier : Node}
  {name specified exported : String} {kind : ExportKind} {line : Nat}

/-- The local declarations that stand behind the specifiers of a statement. -/
def declarationsBehind (module : Module) (statement : Node) : List Declared :=
  if (statement.childByField "source").isSome then []
  else module.localDeclarations

theorem mem_localDeclarations :
    ⟨name, node, kind⟩ ∈ module.localDeclarations ↔
      ∃ declaration ∈ module.statements,
        declaration.kind ≠ "export_statement" ∧
          module.Declares declaration name node kind := by
  simp only [localDeclarations, List.mem_flatMap, List.mem_filter,
    mem_declaredNames, decide_eq_true_eq, and_assoc]

theorem mem_declarationsBehind :
    ⟨name, node, kind⟩ ∈ module.declarationsBehind statement ↔
      statement.childByField "source" = none ∧
        ∃ declaration ∈ module.statements,
          declaration.kind ≠ "export_statement" ∧
            module.Declares declaration name node kind := by
  rw [declarationsBehind, ← mem_localDeclarations]
  cases statement.childByField "source" with
  | none => simp
  | some source => simp

/-- The first of the local declarations of a name. -/
theorem isFirst_declarationsBehind :
    (∃ declared, IsFirst (·.name = name) (module.declarationsBehind statement)
      declared ∧ declared.kind = kind) ↔
      statement.childByField "source" = none ∧
        ∃ declaration, IsFirst (fun declaration =>
            declaration.kind ≠ "export_statement" ∧
              module.Announces declaration name)
          module.statements declaration ∧
          module.AnnouncesAs declaration name kind := by
  rw [declarationsBehind]
  cases statement.childByField "source" with
  | some source => simp [IsFirst]
  | none =>
      simp only [Option.isSome_none, Bool.false_eq_true, if_false, true_and,
        localDeclarations, isFirst_flatMap, isFirst_filter, announces_iff,
        announcesAs_iff, decide_eq_true_eq]
      constructor
      · rintro ⟨declared, ⟨declaration, first, inside⟩, isKind⟩
        exact ⟨declaration, first, declared, inside, isKind⟩
      · rintro ⟨declaration, first, declared, inside, isKind⟩
        exact ⟨declared, ⟨declaration, first, inside⟩, isKind⟩

/-! ## Specifiers and namespaces -/

/-- What a specifier or a namespace of an export statement contributes. -/
def itemContributions (module : Module) (locals : List Declared) (item : Node) :
    List Contribution :=
  if item.kind = "export_specifier" then
    module.specifierContributions locals item
  else if item.kind = "namespace_export" then
    item.namedChildren.map fun child =>
      ⟨module.specifierName child, module.line item, .namespaceReexport⟩
  else []

theorem clauseContributions_eq (locals : List Declared) (part : Node) :
    module.clauseContributions locals part =
      (if part.kind = "export_clause" then
        part.namedChildren.filter (·.kind = "export_specifier")
      else if part.kind = "namespace_export" then [part]
      else []).flatMap (module.itemContributions locals) := by
  unfold clauseContributions
  split
  · refine List.flatMap_congr fun item member => ?_
    have isSpecifier := (List.mem_filter.mp member).2
    rw [itemContributions, if_pos (of_decide_eq_true isSpecifier)]
  · split
    · next isSpace =>
      rw [List.flatMap_singleton, itemContributions,
        if_neg (by rw [isSpace]; decide), if_pos isSpace]
    · rfl

theorem flatMap_clauseContributions (locals : List Declared)
    (statement : Node) :
    statement.namedChildren.flatMap (module.clauseContributions locals) =
      statement.exportItems.flatMap (module.itemContributions locals) := by
  rw [Node.exportItems, List.flatMap_assoc]
  exact List.flatMap_congr fun part _ => clauseContributions_eq locals part

theorem specifierContributions_of_specifies
    (specifies : module.Specifies specifier specified exported)
    (locals : List Declared) :
    module.specifierContributions locals specifier =
      (locals.filter (·.name = specified)).map (fun declared =>
        ⟨exported, module.line declared.node, declared.kind⟩) ++
      [⟨exported, module.line specifier, .specifier⟩] := by
  cases specifies with
  | plain field noAlias => simp [specifierContributions, field, noAlias]
  | aliased field hasAlias => simp [specifierContributions, field, hasAlias]

/-- A specifier without a name contributes nothing. -/
theorem specifies_or_nothing (module : Module) (specifier : Node) :
    (∃ specified exported, module.Specifies specifier specified exported) ∨
      (∀ specified exported, ¬ module.Specifies specifier specified exported) ∧
        ∀ locals, module.specifierContributions locals specifier = [] := by
  cases field : specifier.childByField "name" with
  | some nameNode =>
      cases hasAlias : specifier.childByField "alias" with
      | none => exact .inl ⟨_, _, .plain field hasAlias⟩
      | some aliasNode => exact .inl ⟨_, _, .aliased field hasAlias⟩
  | none =>
      refine .inr ⟨fun specified exported specifies => ?_, fun locals => ?_⟩
      · cases specifies <;> simp_all
      · simp [specifierContributions, field]

theorem Specifies.unique {otherSpecified otherExported : String}
    (first : module.Specifies specifier specified exported)
    (second : module.Specifies specifier otherSpecified otherExported) :
    specified = otherSpecified ∧ exported = otherExported := by
  cases first <;> cases second <;> simp_all

theorem mem_specifierContributions {locals : List Declared}
    (specifies : module.Specifies specifier specified exported) :
    ⟨name, line, kind⟩ ∈ module.specifierContributions locals specifier ↔
      name = exported ∧
        ((∃ node, ⟨specified, node, kind⟩ ∈ locals ∧ module.line node = line) ∨
          line = module.line specifier ∧ kind = .specifier) := by
  rw [specifierContributions_of_specifies specifies, List.mem_append,
    List.mem_map, List.mem_singleton]
  constructor
  · rintro (⟨⟨other, node, kind⟩, behind, same⟩ | same)
    · obtain ⟨listed, isName⟩ := List.mem_filter.mp behind
      obtain ⟨rfl, rfl, rfl⟩ := Contribution.mk.inj same
      obtain rfl := of_decide_eq_true isName
      exact ⟨rfl, .inl ⟨node, listed, rfl⟩⟩
    · obtain ⟨rfl, rfl, rfl⟩ := Contribution.mk.inj same
      exact ⟨rfl, .inr ⟨rfl, rfl⟩⟩
  · rintro ⟨rfl, ⟨node, listed, rfl⟩ | ⟨rfl, rfl⟩⟩
    · exact .inl ⟨_, List.mem_filter.mpr ⟨listed, by simp⟩, rfl⟩
    · exact .inr rfl

/-- The contributions listed for a specifier or a namespace are those that it
makes. -/
theorem mem_itemContributions :
    ⟨name, line, kind⟩ ∈
        module.itemContributions (module.declarationsBehind statement) item ↔
      ∃ node, module.ItemContributes statement item name node kind ∧
        module.line node = line := by
  rw [itemContributions]
  constructor
  · intro listed
    split at listed
    · next isSpecifier =>
      rcases module.specifies_or_nothing item with
        ⟨specified, exported, specifies⟩ | ⟨_, nothing⟩
      · obtain ⟨rfl, ⟨node, behind, isLine⟩ | ⟨rfl, rfl⟩⟩ :=
          (mem_specifierContributions specifies).mp listed
        · obtain ⟨noSource, declaration, top, notExported, declares⟩ :=
            mem_declarationsBehind.mp behind
          exact ⟨node, .behind isSpecifier specifies noSource top notExported
            declares, isLine⟩
        · exact ⟨item, .specifier isSpecifier specifies, rfl⟩
      · rw [nothing] at listed
        cases listed
    split at listed
    · next isSpace =>
      obtain ⟨child, member, same⟩ := List.mem_map.mp listed
      obtain ⟨rfl, rfl, rfl⟩ := Contribution.mk.inj same
      exact ⟨item, .space isSpace member, rfl⟩
    · cases listed
  · rintro ⟨node, contributes, rfl⟩
    cases contributes with
    | behind isSpecifier specifies noSource top notExported declares =>
        have behind := mem_declarationsBehind.mpr
          ⟨noSource, _, top, notExported, declares⟩
        rw [if_pos isSpecifier, mem_specifierContributions specifies]
        exact ⟨rfl, .inl ⟨node, behind, rfl⟩⟩
    | specifier isSpecifier specifies =>
        rw [if_pos isSpecifier, mem_specifierContributions specifies]
        exact ⟨rfl, .inr ⟨rfl, rfl⟩⟩
    | space isSpace member =>
        rw [if_neg (by rw [isSpace]; decide), if_pos isSpace]
        exact List.mem_map.mpr ⟨_, member, rfl⟩

theorem name_of_mem_specifierContributions {locals : List Declared}
    {entry : Contribution}
    (specifies : module.Specifies specifier specified exported)
    (listed : entry ∈ module.specifierContributions locals specifier) :
    entry.name = exported :=
  ((mem_specifierContributions specifies).mp listed).1

/-- The kind of the first contribution of a specifier is that of the first
declaration of the specified name, where there is one. -/
theorem head?_specifierContributions
    (specifies : module.Specifies specifier specified exported)
    (locals : List Declared) :
    (module.specifierContributions locals specifier).head?.map (·.kind) =
      some (((locals.find? (·.name = specified)).map (·.kind)).getD
        .specifier) := by
  rw [specifierContributions_of_specifies specifies, List.head?_append,
    List.head?_map, List.head?_filter]
  cases locals.find? (·.name = specified) with
  | none => rfl
  | some declared => rfl

theorem isFirst_specifierContributions
    (specifies : module.Specifies specifier specified exported)
    (locals : List Declared) :
    (∃ entry, IsFirst (·.name = name)
        (module.specifierContributions locals specifier) entry ∧
      entry.kind = kind) ↔
      name = exported ∧
        ((∃ declared, IsFirst (·.name = specified) locals declared ∧
            declared.kind = kind) ∨
          (∀ declared ∈ locals, declared.name ≠ specified) ∧
            kind = .specifier) := by
  by_cases same : name = exported
  · subst same
    -- All contributions of the specifier have this name, so the first is the
    -- head of the list.
    have named : ∀ entry ∈ module.specifierContributions locals specifier,
        entry.name = name :=
      fun _ listed => name_of_mem_specifierContributions specifies listed
    simp only [isFirst_iff_head? named, ← Option.map_eq_some_iff,
      head?_specifierContributions specifies, isFirst_iff_find?, true_and]
    cases found : locals.find? (·.name = specified) with
    | some declared =>
        obtain ⟨listed, isName⟩ :=
          (isFirst_iff_find?.mpr found).mem_and_holds
        have declares : ¬ ∀ declared ∈ locals, declared.name ≠ specified :=
          fun none => none declared listed isName
        simp [declares]
    | none =>
        have nothing : ∀ declared ∈ locals, declared.name ≠ specified := by
          simpa using found
        constructor
        · intro same
          exact .inr ⟨nothing, (Option.some.inj same).symm⟩
        · rintro (found | ⟨_, rfl⟩)
          · cases found
          · rfl
  · constructor
    · rintro ⟨entry, first, _⟩
      obtain ⟨listed, isName⟩ := first.mem_and_holds
      exact absurd (isName.symm.trans
        (name_of_mem_specifierContributions specifies listed)) same
    · exact fun known => absurd known.1 same

theorem forall_declarationsBehind :
    (∀ declared ∈ module.declarationsBehind statement,
        declared.name ≠ name) ↔
      (statement.childByField "source" = none →
        ∀ declaration ∈ module.statements,
          declaration.kind ≠ "export_statement" →
            ¬ module.Announces declaration name) := by
  constructor
  · rintro none noSource declaration top notExported ⟨node, kind, declares⟩
    exact none _ (mem_declarationsBehind.mpr
      ⟨noSource, declaration, top, notExported, declares⟩) rfl
  · rintro nothing ⟨name, node, kind⟩ behind rfl
    obtain ⟨noSource, declaration, top, notExported, declares⟩ :=
      mem_declarationsBehind.mp behind
    exact nothing noSource declaration top notExported ⟨node, kind, declares⟩

theorem itemContributesAs_of_specifier
    (isSpecifier : item.kind = "export_specifier")
    (specifies : module.Specifies item specified exported) :
    module.ItemContributesAs statement item name kind ↔
      name = exported ∧
        ((statement.childByField "source" = none ∧
            ∃ declaration, IsFirst (fun declaration =>
                declaration.kind ≠ "export_statement" ∧
                  module.Announces declaration specified)
              module.statements declaration ∧
              module.AnnouncesAs declaration specified kind) ∨
          (statement.childByField "source" = none →
            ∀ declaration ∈ module.statements,
              declaration.kind ≠ "export_statement" →
                ¬ module.Announces declaration specified) ∧
            kind = .specifier) := by
  constructor
  · intro contributes
    cases contributes with
    | behind _ also noSource first announces =>
        obtain ⟨rfl, rfl⟩ := specifies.unique also
        exact ⟨rfl, .inl ⟨noSource, _, first, announces⟩⟩
    | specifier _ also nothing =>
        obtain ⟨rfl, rfl⟩ := specifies.unique also
        exact ⟨rfl, .inr ⟨nothing, rfl⟩⟩
    | space isSpace =>
        rw [isSpecifier] at isSpace
        exact absurd isSpace (by decide)
  · rintro ⟨rfl, ⟨noSource, declaration, first, announces⟩ | ⟨nothing, rfl⟩⟩
    · exact .behind isSpecifier specifies noSource first announces
    · exact .specifier isSpecifier specifies nothing

/-- Of all that is no namespace, only a specifier that specifies a name
contributes. -/
theorem ItemContributesAs.exists_specifies
    (contributes : module.ItemContributesAs statement item name kind)
    (notSpace : item.kind ≠ "namespace_export") :
    item.kind = "export_specifier" ∧
      ∃ specified, module.Specifies item specified name := by
  cases contributes with
  | behind isSpecifier specifies => exact ⟨isSpecifier, _, specifies⟩
  | specifier isSpecifier specifies => exact ⟨isSpecifier, _, specifies⟩
  | space isSpace => exact absurd isSpace notSpace

theorem itemContributesAs_of_space
    (isSpace : item.kind = "namespace_export") :
    module.ItemContributesAs statement item name kind ↔
      (∃ child ∈ item.namedChildren, module.specifierName child = name) ∧
        kind = .namespaceReexport := by
  have notSpecifier : item.kind ≠ "export_specifier" := by
    rw [isSpace]
    decide
  constructor
  · intro contributes
    cases contributes with
    | behind also => exact absurd also notSpecifier
    | specifier also => exact absurd also notSpecifier
    | space _ member isName => exact ⟨⟨_, member, isName⟩, rfl⟩
  · rintro ⟨⟨child, member, isName⟩, rfl⟩
    exact .space isSpace member isName

/-- The kind of the first contribution of a specifier or a namespace. -/
theorem isFirst_itemContributions :
    (∃ entry, IsFirst (·.name = name)
        (module.itemContributions (module.declarationsBehind statement) item)
        entry ∧ entry.kind = kind) ↔
      module.ItemContributesAs statement item name kind := by
  rw [itemContributions]
  by_cases isSpace : item.kind = "namespace_export"
  · rw [if_neg (by rw [isSpace]; decide), if_pos isSpace,
      itemContributesAs_of_space isSpace]
    simp only [isFirst_map]
    constructor
    · rintro ⟨entry, ⟨child, first, rfl⟩, rfl⟩
      exact ⟨⟨child, first.mem_and_holds⟩, rfl⟩
    · rintro ⟨⟨child, member, isName⟩, rfl⟩
      have found : ∃ first, IsFirst (module.specifierName · = name)
          item.namedChildren first := exists_isFirst member isName
      obtain ⟨first, isFirst⟩ := found
      exact ⟨_, ⟨first, isFirst, rfl⟩, rfl⟩
  rw [if_neg isSpace]
  split
  · next isSpecifier =>
    rcases module.specifies_or_nothing item with
      ⟨specified, exported, specifies⟩ | ⟨unnamed, nothing⟩
    · rw [isFirst_specifierContributions specifies, isFirst_declarationsBehind,
        forall_declarationsBehind,
        itemContributesAs_of_specifier isSpecifier specifies]
    · rw [nothing]
      constructor
      · rintro ⟨entry, first, _⟩
        cases first.mem_and_holds.1
      · intro contributes
        obtain ⟨_, specified, specifies⟩ :=
          contributes.exists_specifies isSpace
        exact absurd specifies (unnamed specified name)
  · next notSpecifier =>
    constructor
    · rintro ⟨entry, first, _⟩
      cases first.mem_and_holds.1
    · intro contributes
      exact absurd (contributes.exists_specifies isSpace).1 notSpecifier

/-! ## Statements -/

theorem statementContributions_of_default
    (isDefault : exportsDefault statement = true) :
    module.statementContributions module.localDeclarations statement =
      [⟨"default", module.line statement, .default⟩] := by
  rw [statementContributions, if_pos isDefault]

theorem statementContributions_of_declaration {declaration : Node}
    (notDefault : exportsDefault statement = false)
    (field : statement.childByField "declaration" = some declaration) :
    module.statementContributions module.localDeclarations statement =
      (module.declaredNames declaration).map fun declared =>
        ⟨declared.name, module.line declared.node, declared.kind⟩ := by
  rw [statementContributions, if_neg (Bool.eq_false_iff.mp notDefault), field]

theorem statementContributions_of_items
    (notDefault : exportsDefault statement = false)
    (noDeclaration : statement.childByField "declaration" = none) :
    module.statementContributions module.localDeclarations statement =
      statement.exportItems.flatMap
        (module.itemContributions (module.declarationsBehind statement)) := by
  rw [statementContributions, if_neg (Bool.eq_false_iff.mp notDefault),
    noDeclaration]
  exact flatMap_clauseContributions (module.declarationsBehind statement) statement

theorem contributes_of_default (isDefault : exportsDefault statement = true) :
    module.Contributes statement name node kind ↔
      name = "default" ∧ node = statement ∧ kind = .default := by
  constructor
  · intro contributes
    cases contributes with
    | default => exact ⟨rfl, rfl, rfl⟩
    | declared notDefault => simp [isDefault] at notDefault
    | item notDefault => simp [isDefault] at notDefault
  · rintro ⟨rfl, rfl, rfl⟩
    exact .default isDefault

theorem contributes_of_declaration {declaration : Node}
    (notDefault : exportsDefault statement = false)
    (field : statement.childByField "declaration" = some declaration) :
    module.Contributes statement name node kind ↔
      module.Declares declaration name node kind := by
  constructor
  · intro contributes
    cases contributes with
    | default isDefault => simp [notDefault] at isDefault
    | declared _ also declares =>
        cases field.symm.trans also
        exact declares
    | item _ noDeclaration => simp [field] at noDeclaration
  · exact .declared notDefault field

theorem contributes_of_items
    (notDefault : exportsDefault statement = false)
    (noDeclaration : statement.childByField "declaration" = none) :
    module.Contributes statement name node kind ↔
      ∃ item ∈ statement.exportItems,
        module.ItemContributes statement item name node kind := by
  constructor
  · intro contributes
    cases contributes with
    | default isDefault => simp [notDefault] at isDefault
    | declared _ field => simp [noDeclaration] at field
    | item _ _ listed contributes => exact ⟨_, listed, contributes⟩
  · rintro ⟨item, listed, contributes⟩
    exact .item notDefault noDeclaration listed contributes

/-- The contributions listed for a statement are those that it makes. -/
theorem mem_statementContributions :
    ⟨name, line, kind⟩ ∈
        module.statementContributions module.localDeclarations statement ↔
      ∃ node, module.Contributes statement name node kind ∧
        module.line node = line := by
  cases isDefault : exportsDefault statement with
  | true =>
      simp only [statementContributions_of_default isDefault,
        contributes_of_default isDefault, List.mem_singleton,
        Contribution.mk.injEq]
      constructor
      · rintro ⟨isName, isLine, isKind⟩
        exact ⟨statement, ⟨isName, rfl, isKind⟩, isLine.symm⟩
      · rintro ⟨_, ⟨isName, rfl, isKind⟩, isLine⟩
        exact ⟨isName, isLine.symm, isKind⟩
  | false =>
      cases field : statement.childByField "declaration" with
      | some declaration =>
          simp only [statementContributions_of_declaration isDefault field,
            contributes_of_declaration isDefault field, List.mem_map,
            ← mem_declaredNames]
          constructor
          · rintro ⟨⟨other, node, _⟩, listed, same⟩
            obtain ⟨rfl, rfl, rfl⟩ := Contribution.mk.inj same
            exact ⟨node, listed, rfl⟩
          · rintro ⟨node, listed, rfl⟩
            exact ⟨_, listed, rfl⟩
      | none =>
          simp only [statementContributions_of_items isDefault field,
            contributes_of_items isDefault field, List.mem_flatMap,
            mem_itemContributions]
          constructor
          · rintro ⟨item, listed, node, contributes, isLine⟩
            exact ⟨node, ⟨item, listed, contributes⟩, isLine⟩
          · rintro ⟨node, ⟨item, listed, contributes⟩, isLine⟩
            exact ⟨item, listed, node, contributes, isLine⟩

/-- Where a list has exactly the contributions that are made, it has one of a
name if one to the name is made. -/
theorem exists_entry_iff {entries : List Contribution}
    {makes : String → Node → ExportKind → Prop}
    (listed : ∀ {name line kind}, ⟨name, line, kind⟩ ∈ entries ↔
      ∃ node, makes name node kind ∧ module.line node = line) :
    (∃ entry ∈ entries, entry.name = name) ↔
      ∃ node kind, makes name node kind := by
  constructor
  · rintro ⟨⟨name, line, kind⟩, member, rfl⟩
    obtain ⟨node, made, _⟩ := listed.mp member
    exact ⟨node, kind, made⟩
  · rintro ⟨node, kind, made⟩
    exact ⟨_, listed.mpr ⟨node, made, rfl⟩, rfl⟩

theorem exists_itemContributions :
    (∃ entry ∈ module.itemContributions (module.declarationsBehind statement)
        item, entry.name = name) ↔
      ∃ node kind, module.ItemContributes statement item name node kind :=
  exists_entry_iff mem_itemContributions

theorem exists_statementContributions :
    (∃ entry ∈ module.statementContributions module.localDeclarations statement,
        entry.name = name) ↔
      ∃ node kind, module.Contributes statement name node kind :=
  exists_entry_iff mem_statementContributions

theorem contributesAs_of_default
    (isDefault : exportsDefault statement = true) :
    module.ContributesAs statement name kind ↔
      name = "default" ∧ kind = .default := by
  constructor
  · intro contributes
    cases contributes with
    | default _ isName => exact ⟨isName, rfl⟩
    | declared notDefault => simp [isDefault] at notDefault
    | item notDefault => simp [isDefault] at notDefault
  · rintro ⟨isName, rfl⟩
    exact .default isDefault isName

theorem contributesAs_of_declaration {declaration : Node}
    (notDefault : exportsDefault statement = false)
    (field : statement.childByField "declaration" = some declaration) :
    module.ContributesAs statement name kind ↔
      module.AnnouncesAs declaration name kind := by
  constructor
  · intro contributes
    cases contributes with
    | default isDefault => simp [notDefault] at isDefault
    | declared _ also announces =>
        cases field.symm.trans also
        exact announces
    | item _ noDeclaration => simp [field] at noDeclaration
  · exact .declared notDefault field

theorem contributesAs_of_items
    (notDefault : exportsDefault statement = false)
    (noDeclaration : statement.childByField "declaration" = none) :
    module.ContributesAs statement name kind ↔
      ∃ item, IsFirst (fun item =>
          ∃ node kind, module.ItemContributes statement item name node kind)
        statement.exportItems item ∧
        module.ItemContributesAs statement item name kind := by
  constructor
  · intro contributes
    cases contributes with
    | default isDefault => simp [notDefault] at isDefault
    | declared _ field => simp [noDeclaration] at field
    | item _ _ first contributes => exact ⟨_, first, contributes⟩
  · rintro ⟨item, first, contributes⟩
    exact .item notDefault noDeclaration first contributes

/-- The kind of the first contribution of a statement. -/
theorem isFirst_statementContributions :
    (∃ entry, IsFirst (·.name = name)
        (module.statementContributions module.localDeclarations statement)
        entry ∧ entry.kind = kind) ↔
      module.ContributesAs statement name kind := by
  cases isDefault : exportsDefault statement with
  | true =>
      rw [statementContributions_of_default isDefault,
        contributesAs_of_default isDefault]
      constructor
      · rintro ⟨entry, first, rfl⟩
        obtain ⟨listed, rfl⟩ := first.mem_and_holds
        cases List.mem_singleton.mp listed
        exact ⟨rfl, rfl⟩
      · rintro ⟨rfl, rfl⟩
        exact ⟨_, ⟨[], [], rfl, rfl, nofun⟩, rfl⟩
  | false =>
      cases field : statement.childByField "declaration" with
      | some declaration =>
          rw [statementContributions_of_declaration isDefault field,
            contributesAs_of_declaration isDefault field, announcesAs_iff]
          simp only [isFirst_map]
          constructor
          · rintro ⟨_, ⟨declared, first, rfl⟩, isKind⟩
            exact ⟨declared, first, isKind⟩
          · rintro ⟨declared, first, isKind⟩
            exact ⟨_, ⟨declared, first, rfl⟩, isKind⟩
      | none =>
          rw [statementContributions_of_items isDefault field,
            contributesAs_of_items isDefault field]
          simp only [isFirst_flatMap, exists_itemContributions,
            ← isFirst_itemContributions]
          constructor
          · rintro ⟨entry, ⟨item, first, inside⟩, isKind⟩
            exact ⟨item, first, entry, inside, isKind⟩
          · rintro ⟨item, first, entry, inside, isKind⟩
            exact ⟨entry, ⟨item, first, inside⟩, isKind⟩

/-! ## Contributing nodes -/

theorem exists_occurs_of_mem_exportItems {root : Node} {parent : Option Node}
    (occurs : root.Occurs parent statement)
    (listed : item ∈ statement.exportItems) :
    ∃ parent, root.Occurs parent item := by
  obtain ⟨part, member, inside⟩ := List.mem_flatMap.mp listed
  have partOccurs : root.Occurs (some statement) part :=
    occurs.child (List.mem_filter.mp member).1
  split at inside
  · have child := (List.mem_filter.mp inside).1
    exact ⟨part, partOccurs.child (List.mem_filter.mp child).1⟩
  split at inside
  · rw [List.mem_singleton] at inside
    exact ⟨statement, inside ▸ partOccurs⟩
  · cases inside

theorem occurs_of_mem_statements (top : statement ∈ module.statements) :
    module.root.Occurs (some module.root) statement :=
  .child .root (List.mem_filter.mp top).1

/-- The node on whose line a contribution of a top-level statement stands occurs
in the tree of the module. -/
theorem Contributes.exists_occurs (top : statement ∈ module.statements)
    (contributes : module.Contributes statement name node kind) :
    ∃ parent, module.root.Occurs parent node := by
  have occurs := occurs_of_mem_statements top
  cases contributes with
  | default => exact ⟨_, occurs⟩
  | declared _ field declares =>
      exact declares.exists_occurs
        (occurs.child (List.mem_of_find?_eq_some field))
  | item _ _ listed contributes =>
      cases contributes with
      | behind _ _ _ declaredTop _ declares =>
          exact declares.exists_occurs (occurs_of_mem_statements declaredTop)
      | specifier => exact exists_occurs_of_mem_exportItems occurs listed
      | space => exact exists_occurs_of_mem_exportItems occurs listed

end Module

end ExportAudit
