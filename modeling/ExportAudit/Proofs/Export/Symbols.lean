import ExportAudit.Proofs.Export.Contributing
import ExportAudit.Proofs.Graph.Building

/-!
# The export symbols of a module

A module has one symbol for each name that its export statements contribute.
The symbol stands on the least line of the contributions and has the kind of the
first, and the symbols are listed by line and name.

The local declarations behind a specifier count as contributions directly before
it.  Declarations that are exported in place stand behind no specifier.
-/

namespace ExportAudit

/-! ## The order of symbols -/

namespace Export

/-- A symbol comes before another: by line, where those that have none come
last, and then by name. -/
inductive Precedes (left right : Export) : Prop where
  | noLine {line : Int} (has : left.line = some line)
      (lacks : right.line = none)
  | line {leftLine rightLine : Int} (leftHas : left.line = some leftLine)
      (rightHas : right.line = some rightLine) (before : leftLine < rightLine)
  | name (sameLine : left.line = right.line) (before : left.name < right.name)

theorem precedes_of_listed {left right : Export}
    (listed : left.listed right = true) (different : left.name ≠ right.name) :
    left.Precedes right := by
  have byName : left.name ≤ right.name → left.name < right.name := by
    intro atMost
    by_contra notBefore
    exact different (StrictOrder.connected notBefore (String.not_lt.mpr atMost))
  unfold Export.listed at listed
  split at listed
  · next leftLine rightLine leftHas rightHas =>
    simp only [Bool.or_eq_true, Bool.and_eq_true, decide_eq_true_eq] at listed
    rcases listed with before | ⟨same, atMost⟩
    · exact .line leftHas rightHas before
    · exact .name (by rw [leftHas, rightHas, same]) (byName atMost)
  · next line has lacks => exact .noLine has lacks
  · cases listed
  · next leftLacks rightLacks =>
    exact .name (leftLacks.trans rightLacks.symm)
      (byName (of_decide_eq_true listed))

theorem listed_of_lines {left right : Export} {leftLine rightLine : Int}
    (leftHas : left.line = some leftLine)
    (rightHas : right.line = some rightLine) :
    left.listed right = true ↔
      leftLine < rightLine ∨
        leftLine = rightLine ∧ left.name ≤ right.name := by
  simp [listed, leftHas, rightHas]

theorem listed_of_no_line {left right : Export} (lacks : left.line = none) :
    left.listed right = true ↔ right.line = none ∧ left.name ≤ right.name := by
  cases right.line.eq_none_or_eq_some with
  | inl rightLacks => simp [listed, lacks, rightLacks]
  | inr has =>
      obtain ⟨line, has⟩ := has
      simp [listed, lacks, has]

theorem listed_trans (left middle right : Export)
    (first : left.listed middle = true) (second : middle.listed right = true) :
    left.listed right = true := by
  cases leftLine : left.line with
  | none =>
      obtain ⟨lacks, before⟩ := (listed_of_no_line leftLine).mp first
      obtain ⟨rightLacks, after⟩ := (listed_of_no_line lacks).mp second
      exact (listed_of_no_line leftLine).mpr
        ⟨rightLacks, String.le_trans before after⟩
  | some line =>
      cases rightLine : right.line with
      | none => simp [listed, leftLine, rightLine]
      | some other =>
          cases middleLine : middle.line with
          | none =>
              obtain ⟨lacks, _⟩ := (listed_of_no_line middleLine).mp second
              simp [rightLine] at lacks
          | some between =>
              rw [listed_of_lines leftLine middleLine] at first
              rw [listed_of_lines middleLine rightLine] at second
              rw [listed_of_lines leftLine rightLine]
              rcases first with first | ⟨rfl, before⟩
              · exact .inl (by omega)
              rcases second with second | ⟨rfl, after⟩
              · exact .inl second
              · exact .inr ⟨rfl, String.le_trans before after⟩

theorem listed_total (left right : Export) :
    (left.listed right || right.listed left) = true := by
  rw [Bool.or_eq_true]
  cases leftLine : left.line with
  | none =>
      cases rightLine : right.line with
      | none =>
          rw [listed_of_no_line leftLine, listed_of_no_line rightLine]
          exact (String.le_total left.name right.name).imp
            (⟨rightLine, ·⟩) (⟨leftLine, ·⟩)
      | some other => exact .inr (by simp [listed, leftLine, rightLine])
  | some line =>
      cases rightLine : right.line with
      | none => exact .inl (by simp [listed, leftLine, rightLine])
      | some other =>
          rw [listed_of_lines leftLine rightLine,
            listed_of_lines rightLine leftLine]
          rcases Int.lt_trichotomy line other with less | rfl | more
          · exact .inl (.inl less)
          · exact (String.le_total left.name right.name).imp
              (.inr ⟨rfl, ·⟩) (.inr ⟨rfl, ·⟩)
          · exact .inr (.inl more)

end Export

namespace Module

/-! ## The contributions of a module -/

/-- A top-level export statement of a module contributes a name. -/
def Contributed (module : Module) (name : String) (node : Node)
    (kind : ExportKind) : Prop :=
  ∃ statement ∈ module.statements, statement.kind = "export_statement" ∧
    module.Contributes statement name node kind

/-- The kind of the first contribution to a name: that of the first top-level
export statement that contributes it. -/
def ContributedAs (module : Module) (name : String) (kind : ExportKind) : Prop :=
  ∃ statement, IsFirst (fun statement =>
      statement.kind = "export_statement" ∧
        ∃ node kind, module.Contributes statement name node kind)
    module.statements statement ∧
    module.ContributesAs statement name kind

variable {module : Module} {statement specifier declaration node : Node}
  {name specified exported : String} {kind : ExportKind} {line : Nat}
  {symbol : Export}

theorem mem_contributions :
    ⟨name, line, kind⟩ ∈ module.contributions ↔
      ∃ node, module.Contributed name node kind ∧ module.line node = line := by
  simp only [contributions, List.mem_flatMap, List.mem_filter,
    decide_eq_true_eq, mem_statementContributions, Contributed]
  constructor
  · rintro ⟨statement, ⟨top, isExport⟩, node, contributes, isLine⟩
    exact ⟨node, ⟨statement, top, isExport, contributes⟩, isLine⟩
  · rintro ⟨node, ⟨statement, top, isExport, contributes⟩, isLine⟩
    exact ⟨statement, ⟨top, isExport⟩, node, contributes, isLine⟩

theorem isFirst_contributions :
    (∃ entry, IsFirst (·.name = name) module.contributions entry ∧
      entry.kind = kind) ↔ module.ContributedAs name kind := by
  simp only [contributions, isFirst_flatMap, isFirst_filter,
    exists_statementContributions, ContributedAs,
    ← isFirst_statementContributions, decide_eq_true_eq]
  constructor
  · rintro ⟨entry, ⟨statement, first, inside⟩, isKind⟩
    exact ⟨statement, first, entry, inside, isKind⟩
  · rintro ⟨statement, first, entry, inside, isKind⟩
    exact ⟨entry, ⟨statement, first, inside⟩, isKind⟩

/-! ## Symbols -/

theorem mem_exports :
    symbol ∈ module.exports ↔
      ∃ entry ∈ module.contributions,
        symbol = symbolOf entry.name
          (module.contributions.filter (·.name = entry.name)) := by
  rw [exports, Export.sort, List.mem_mergeSort, List.mem_map]
  constructor
  · rintro ⟨name, listed, rfl⟩
    rw [List.mem_eraseDups, List.mem_map] at listed
    obtain ⟨entry, member, rfl⟩ := listed
    exact ⟨entry, member, rfl⟩
  · rintro ⟨entry, member, rfl⟩
    exact ⟨entry.name,
      List.mem_eraseDups.mpr (List.mem_map.mpr ⟨entry, member, rfl⟩), rfl⟩

/-- A module has a symbol for each name that is contributed, and no other. -/
theorem exists_mem_exports :
    (∃ symbol ∈ module.exports, symbol.name = name) ↔
      ∃ node kind, module.Contributed name node kind := by
  rw [← exists_entry_iff mem_contributions]
  constructor
  · rintro ⟨symbol, listed, rfl⟩
    obtain ⟨entry, member, rfl⟩ := mem_exports.mp listed
    exact ⟨entry, member, rfl⟩
  · rintro ⟨entry, member, rfl⟩
    exact ⟨_, mem_exports.mpr ⟨entry, member, rfl⟩, rfl⟩

theorem nodup_names_exports (module : Module) :
    (module.exports.map (·.name)).Nodup := by
  have sorted : module.exports.Perm
      ((module.contributions.map (·.name)).eraseDups.map fun name =>
        symbolOf name (module.contributions.filter (·.name = name))) :=
    List.mergeSort_perm _ _
  rw [(sorted.map _).nodup_iff, List.map_map]
  have named : (fun symbol : Export => symbol.name) ∘ (fun name =>
      symbolOf name (module.contributions.filter (·.name = name))) = id := rfl
  rw [named, List.map_id]
  exact nodup_eraseDups _

theorem pairwise_exports (module : Module) :
    module.exports.Pairwise Export.Precedes := by
  have sorted : module.exports.Pairwise (fun left right =>
      left.listed right = true) :=
    List.pairwise_mergeSort Export.listed_trans Export.listed_total _
  have distinct : module.exports.Pairwise (·.name ≠ ·.name) :=
    List.pairwise_map.mp module.nodup_names_exports
  exact sorted.imp₂ (fun _ _ => Export.precedes_of_listed) distinct

/-- The line of a symbol is the least of those of its contributions. -/
theorem exists_line_of_mem_exports (listed : symbol ∈ module.exports) :
    ∃ node kind, module.Contributed symbol.name node kind ∧
      symbol.line = some (module.line node : Int) ∧
      ∀ other kind, module.Contributed symbol.name other kind →
        module.line node ≤ module.line other := by
  obtain ⟨entry, member, rfl⟩ := mem_exports.mp listed
  cases least : ((module.contributions.filter (·.name = entry.name)).map
      (·.line)).min? with
  | none =>
      rw [List.min?_eq_none_iff, List.map_eq_nil_iff,
        List.filter_eq_nil_iff] at least
      exact absurd (decide_eq_true rfl) (least entry member)
  | some line =>
      obtain ⟨attained, below⟩ := List.min?_eq_some_iff.mp least
      obtain ⟨⟨name, _, kind⟩, known, rfl⟩ := List.mem_map.mp attained
      obtain ⟨known, same⟩ := List.mem_filter.mp known
      obtain ⟨node, contributed, rfl⟩ := mem_contributions.mp known
      obtain rfl : name = entry.name := of_decide_eq_true same
      refine ⟨node, kind, contributed, by rw [symbolOf, least]; rfl, ?_⟩
      intro other otherKind others
      have otherListed := mem_contributions.mpr ⟨other, others, rfl⟩
      exact below _ (List.mem_map.mpr
        ⟨_, List.mem_filter.mpr ⟨otherListed, decide_eq_true rfl⟩, rfl⟩)

/-- The kind of a symbol is that of the first contribution. -/
theorem kind_of_mem_exports (listed : symbol ∈ module.exports) :
    symbol.kind = kind ↔ module.ContributedAs symbol.name kind := by
  obtain ⟨entry, member, rfl⟩ := mem_exports.mp listed
  have found : ∃ first, IsFirst (·.name = entry.name) module.contributions
      first := exists_isFirst member rfl
  obtain ⟨first, isFirst⟩ := found
  have head : (module.contributions.filter (·.name = entry.name)).head? =
      some first := by
    rw [List.head?_filter]
    exact isFirst_iff_find?.mp isFirst
  have kind_eq : (symbolOf entry.name (module.contributions.filter
      (·.name = entry.name))).kind = first.kind := by
    rw [symbolOf, head]
    rfl
  rw [← isFirst_contributions, kind_eq]
  -- The first contribution is unique, so it alone decides about the kind.
  constructor
  · rintro rfl
    exact ⟨first, isFirst, rfl⟩
  · rintro ⟨other, isOther, rfl⟩
    rw [isFirst_iff_find?] at isFirst isOther
    exact congrArg _ (Option.some.inj (isFirst.symm.trans isOther))

/-- The symbols of a module have distinct names and are listed in strict order of
line and name.  There is one for each name that a top-level export statement
contributes.  Each has a line, the least of those of its contributions, on which
a node of the tree starts, and the kind of the first contribution. -/
theorem exports_exact (module : Module) :
    (module.exports.map (·.name)).Nodup ∧
    module.exports.Pairwise Export.Precedes ∧
    (∀ name, (∃ symbol ∈ module.exports, symbol.name = name) ↔
      ∃ node kind, module.Contributed name node kind) ∧
    ∀ symbol ∈ module.exports,
      (∃ node kind, module.Contributed symbol.name node kind ∧
        node ∈ module.nodes ∧ symbol.line = some (module.line node : Int) ∧
        ∀ other kind, module.Contributed symbol.name other kind →
          module.line node ≤ module.line other) ∧
      ∀ kind, symbol.kind = kind ↔ module.ContributedAs symbol.name kind := by
  refine ⟨module.nodup_names_exports, module.pairwise_exports,
    fun name => exists_mem_exports, fun symbol listed => ?_⟩
  obtain ⟨node, kind, contributed, hasLine, least⟩ :=
    exists_line_of_mem_exports listed
  have ⟨statement, top, _, contributes⟩ := contributed
  obtain ⟨parent, occurs⟩ := contributes.exists_occurs top
  have inTree : node ∈ module.nodes :=
    List.mem_map.mpr ⟨_, Node.mem_visits_of_occurs occurs, rfl⟩
  exact ⟨⟨node, kind, contributed, inTree, hasLine, least⟩,
    fun kind => kind_of_mem_exports listed⟩

end Module

/-- A module that exports a variable before it declares it. -/
def exportingAhead : Module :=
  ⟨⟨["a.ts"]⟩, Text.Utf8.encode "export \x7b x \x7d;\nconst x = 1;\n",
    .typescript,
    .named "program" 0 27 none [
      .named "export_statement" 0 13 none [
        .named "export_clause" 7 12 none [
          .named "export_specifier" 9 10 none [
            .named "identifier" 9 10 "name" []]]],
      .named "lexical_declaration" 14 26 none [
        .named "variable_declarator" 20 25 none [
          .named "identifier" 20 21 "name" [],
          .named "number" 24 25 "value" []]]]⟩

theorem contributions_exportingAhead :
    exportingAhead.contributions =
      [⟨"x", 2, .variableBinding⟩, ⟨"x", 1, .specifier⟩] := by
  rfl

/-- In the order of the text the specifier is the first contribution, but the
kind is that of the declaration. -/
theorem kind_of_later_declaration :
    (∃ node, exportingAhead.Contributed "x" node .specifier ∧
      ∀ other kind, exportingAhead.Contributed "x" other kind →
        kind = .specifier ∨
          exportingAhead.line node < exportingAhead.line other) ∧
    ∃ symbol ∈ exportingAhead.exports,
      symbol.name = "x" ∧ symbol.kind = .variableBinding := by
  constructor
  · obtain ⟨node, contributed, atFirst⟩ := Module.mem_contributions.mp
      (contributions_exportingAhead ▸ by simp :
        ⟨"x", 1, .specifier⟩ ∈ exportingAhead.contributions)
    refine ⟨node, contributed, fun other kind others => ?_⟩
    have listed := Module.mem_contributions.mpr ⟨other, others, rfl⟩
    rw [contributions_exportingAhead] at listed
    rw [atFirst]
    simp only [List.mem_cons, Contribution.mk.injEq, true_and,
      List.not_mem_nil, or_false] at listed
    rcases listed with ⟨below, _⟩ | ⟨_, isSpecifier⟩
    · exact .inr (by omega)
    · exact .inl isSpecifier
  · refine ⟨⟨"x", some 1, .variableBinding⟩, Module.mem_exports.mpr ?_, rfl, rfl⟩
    rw [contributions_exportingAhead]
    exact ⟨_, List.mem_cons_self .., by rfl⟩

namespace Module

variable {module : Module} {statement specifier declaring node : Node}
  {name specified exported : String} {kind : ExportKind}

/-! ## Declarations behind specifiers -/

/-- A symbol stands no later than a contribution to its name. -/
theorem exists_mem_exports_line_le
    (contributed : module.Contributed name node kind) :
    ∃ symbol ∈ module.exports, symbol.name = name ∧
      ∃ line : Nat, symbol.line = some (line : Int) ∧
        line ≤ module.line node := by
  obtain ⟨symbol, listed, rfl⟩ := exists_mem_exports.mpr ⟨node, kind, contributed⟩
  obtain ⟨first, _, _, hasLine, least⟩ := exists_line_of_mem_exports listed
  exact ⟨symbol, listed, rfl, _, hasLine, least node kind contributed⟩

/-- A statement exports a list of names of its own module. -/
structure IsExportList (statement : Node) : Prop where
  kind : statement.kind = "export_statement"
  notDefault : exportsDefault statement = false
  noDeclaration : statement.childByField "declaration" = none
  noSource : statement.childByField "source" = none

/-- A top-level statement declares a name: it is the declaration, or it exports
the declaration in place. -/
inductive DeclaresAtTop (module : Module) (declaring : Node) (name : String)
    (node : Node) : Prop where
  | plain {kind : ExportKind}
      (notExported : declaring.kind ≠ "export_statement")
      (declares : module.Declares declaring name node kind)
  | inPlace {declaration : Node} {kind : ExportKind}
      (isExport : declaring.kind = "export_statement")
      (field : declaring.childByField "declaration" = some declaration)
      (declares : module.Declares declaration name node kind)

/-- The symbol that a specifier exports stands no later than a top-level
declaration of the specified name.  A declaration that is exported in place has
this effect on the symbol of its own name only. -/
theorem line_le_of_specifies (top : statement ∈ module.statements)
    (exports : IsExportList statement)
    (listed : specifier ∈ statement.exportItems)
    (isSpecifier : specifier.kind = "export_specifier")
    (specifies : module.Specifies specifier specified exported)
    (declaringTop : declaring ∈ module.statements)
    (declares : module.DeclaresAtTop declaring specified node)
    (ownName : declaring.kind = "export_statement" →
      exportsDefault declaring = false ∧ exported = specified) :
    ∃ symbol ∈ module.exports, symbol.name = exported ∧
      ∃ line : Nat, symbol.line = some (line : Int) ∧
        line ≤ module.line node := by
  cases declares with
  | plain notExported declares =>
      have behind := ItemContributes.behind isSpecifier specifies
        exports.noSource declaringTop notExported declares
      exact exists_mem_exports_line_le ⟨statement, top, exports.kind,
        .item exports.notDefault exports.noDeclaration listed behind⟩
  | inPlace isExport field declares =>
      obtain ⟨notDefault, rfl⟩ := ownName isExport
      exact exists_mem_exports_line_le
        ⟨declaring, declaringTop, isExport, .declared notDefault field declares⟩

end Module

/-! ### Variables exported in place and by name -/

/-- A declaration of a variable, at an offset. -/
def variableAt (start : Nat) (field : Option String) : Node :=
  .named "lexical_declaration" start (start + 12) field [
    .named "variable_declarator" (start + 6) (start + 11) none [
      .named "identifier" (start + 6) (start + 7) "name" [],
      .named "number" (start + 10) (start + 11) "value" []]]

/-- A statement that exports the declaration of a variable in place. -/
def variableExport (start : Nat) : Node :=
  .named "export_statement" start (start + 19) none [
    variableAt (start + 7) "declaration"]

/-- A specifier that exports a variable under another name. -/
def aliasSpecifier (start : Nat) : Node :=
  .named "export_specifier" start (start + 6) none [
    .named "identifier" start (start + 1) "name" [],
    .named "identifier" (start + 5) (start + 6) "alias" []]

/-- A specifier that exports a variable under its own name. -/
def plainSpecifier (start : Nat) : Node :=
  .named "export_specifier" start (start + 1) none [
    .named "identifier" start (start + 1) "name" []]

/-- A statement that exports two variables by name. -/
def pairExport : Node :=
  .named "export_statement" 33 54 none [
    .named "export_clause" 40 53 none [aliasSpecifier 42, plainSpecifier 50]]

/-- A module that exports a variable under another name, and a second one both
in place and by name. -/
def exportingTwice : Module :=
  ⟨⟨["a.ts"]⟩, Text.Utf8.encode
      ("const a = 1;\nexport const b = 2;\n" ++
        "export \x7b a as c, b \x7d;\n"),
    .typescript, .named "program" 0 55 none [
      variableAt 0 none, variableExport 13, pairExport]⟩

/-- The symbol of the other name stands no later than the variable, and the
second symbol no later than the declaration that is exported in place. -/
theorem line_le_of_specifies_twice :
    (∃ symbol ∈ exportingTwice.exports, symbol.name = "c" ∧
      ∃ line : Nat, symbol.line = some (line : Int) ∧ line ≤ 1) ∧
    ∃ symbol ∈ exportingTwice.exports, symbol.name = "b" ∧
      ∃ line : Nat, symbol.line = some (line : Int) ∧ line ≤ 2 := by
  have ownDeclaration : variableAt 0 none ∈ exportingTwice.statements :=
    List.mem_cons_self ..
  have inPlace : variableExport 13 ∈ exportingTwice.statements :=
    List.mem_cons_of_mem _ (List.mem_cons_self ..)
  have byName : pairExport ∈ exportingTwice.statements :=
    List.mem_cons_of_mem _ (List.mem_cons_of_mem _ (List.mem_cons_self ..))
  have aliased : aliasSpecifier 42 ∈ pairExport.exportItems :=
    List.mem_cons_self ..
  have plain : plainSpecifier 50 ∈ pairExport.exportItems :=
    List.mem_cons_of_mem _ (List.mem_cons_self ..)
  constructor
  · exact Module.line_le_of_specifies byName ⟨rfl, rfl, rfl, rfl⟩ aliased rfl
      (.aliased rfl rfl) ownDeclaration
      (.plain (by decide) (.direct (.declarator rfl (List.mem_cons_self ..) rfl
        rfl (.name (.inl rfl))))) nofun
  · exact Module.line_le_of_specifies byName ⟨rfl, rfl, rfl, rfl⟩ plain rfl
      (.plain rfl rfl) inPlace
      (.inPlace rfl rfl (.direct (.declarator rfl (List.mem_cons_self ..) rfl
        rfl (.name (.inl rfl))))) (fun _ => ⟨rfl, rfl⟩)

/-- A statement that exports a variable under another name. -/
def aliasExport : Node :=
  .named "export_statement" 20 38 none [
    .named "export_clause" 27 37 none [aliasSpecifier 29]]

/-- A module that exports a variable in place, and then under another name. -/
def exportingAlias : Module :=
  ⟨⟨["a.ts"]⟩, Text.Utf8.encode
      "export const a = 1;\nexport \x7b a as c \x7d;\n",
    .typescript, .named "program" 0 39 none [variableExport 0, aliasExport]⟩

theorem contributions_exportingAlias :
    exportingAlias.contributions =
      [⟨"a", 1, .variableBinding⟩, ⟨"c", 2, .specifier⟩] := by
  rfl

/-- The declaration that is exported in place does not count for the symbol of
the other name, which stands on the later line of the specifier. -/
theorem line_of_other_name :
    ∃ specifier ∈ aliasExport.exportItems,
      aliasExport ∈ exportingAlias.statements ∧
      Module.IsExportList aliasExport ∧
      specifier.kind = "export_specifier" ∧
      exportingAlias.Specifies specifier "a" "c" ∧
      ∃ declaring ∈ exportingAlias.statements, ∃ node,
        exportingAlias.DeclaresAtTop declaring "a" node ∧
        ¬ ∃ symbol ∈ exportingAlias.exports, symbol.name = "c" ∧
          ∃ line : Nat, symbol.line = some (line : Int) ∧
            line ≤ exportingAlias.line node := by
  have specifies : exportingAlias.Specifies (aliasSpecifier 29)
      (exportingAlias.specifierName (.named "identifier" 29 30 "name" []))
      (exportingAlias.specifierName (.named "identifier" 34 35 "alias" [])) :=
    .aliased rfl rfl
  refine ⟨aliasSpecifier 29, List.mem_cons_self ..,
    List.mem_cons_of_mem _ (List.mem_cons_self ..), ⟨rfl, rfl, rfl, rfl⟩, rfl,
    specifies, variableExport 0, List.mem_cons_self .., _,
    .inPlace rfl rfl (.direct (.declarator rfl (List.mem_cons_self ..) rfl rfl
      (.name (.inl rfl)))), ?_⟩
  rintro ⟨symbol, listed, named, line, hasLine, early⟩
  obtain ⟨node, kind, contributed, onLine, _⟩ :=
    Module.exists_line_of_mem_exports listed
  have entry := Module.mem_contributions.mpr ⟨node, contributed, rfl⟩
  rw [contributions_exportingAlias, named] at entry
  have atEnd : exportingAlias.line node = 2 ∧ kind = .specifier := by
    simpa using entry
  rw [onLine, atEnd.1] at hasLine
  obtain rfl := Int.ofNat.inj (Option.some.inj hasLine)
  exact absurd early (by decide)

end ExportAudit
