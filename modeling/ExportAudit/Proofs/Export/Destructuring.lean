import Mathlib.Data.List.Basic
import Mathlib.Data.List.Find
import Mathlib.Data.List.Flatten
import Mathlib.Data.List.Forall2
import ExportAudit.Proofs.Export.Declaring
import ExportAudit.Proofs.Syntax.Range

/-!
# Names bound by destructuring

A binding pattern takes a value apart into identifiers.  In its syntax tree the
identifiers that it binds are those outside of property keys and default values,
in the order of the text.  All of them are listed, wherever comments stand, but
for one word: an `undefined` that is a whole target in a pattern is a node of a
kind of its own, from which no name is read.
-/

namespace ExportAudit

/-! ## Patterns as they are written -/

/-- A binding pattern, or a part of one: a name that takes the whole value, a
property taken under its own name, a property or a target with a default value,
the rest, or the properties or the elements of a value.  Keys and default values
are nodes of any form.  Which part may stand where is left open. -/
inductive BindingPattern where
  | name (identifier : String)
  | shorthand (identifier : String)
  | pair (key : Node) (target : BindingPattern)
  | defaulted (target : BindingPattern) (value : Node)
  | rest (target : BindingPattern)
  | object (members : List BindingPattern)
  | array (elements : List BindingPattern)

namespace BindingPattern

mutual

/-- The identifiers that a pattern binds, in order. -/
def identifiers : BindingPattern → List String
  | .name identifier => [identifier]
  | .shorthand identifier => [identifier]
  | .pair _ target => target.identifiers
  | .defaulted target _ => target.identifiers
  | .rest target => target.identifiers
  | .object members => identifiersAll members
  | .array elements => identifiersAll elements

/-- The identifiers that the patterns of a list bind, in order. -/
def identifiersAll : List BindingPattern → List String
  | [] => []
  | pattern :: others => pattern.identifiers ++ identifiersAll others

end

theorem identifiersAll_eq_flatMap (patterns : List BindingPattern) :
    identifiersAll patterns = patterns.flatMap identifiers := by
  induction patterns with
  | nil => rw [identifiersAll, List.flatMap_nil]
  | cons pattern others ih => rw [identifiersAll, ih, List.flatMap_cons]

end BindingPattern

/-! ## Their syntax trees -/

namespace Node

/-- The children of a node that are neither tokens nor comments. -/
def parts (node : Node) : List Node :=
  node.namedChildren.filter (!·.isComment)

/-- A node consists of parts.  Among them stand only tokens and comments, which
fill no field and have nothing below them. -/
structure ConsistsOf (node : Node) (parts : List Node) : Prop where
  parts_eq : node.parts = parts
  between : ∀ child ∈ node.children,
    child.isNamed = false ∨ child.isComment = true →
      child.field = none ∧ child.children = []

/-- A node is a word of a kind. -/
structure IsWord (node : Node) (kind : String) : Prop where
  kind_eq : node.kind = kind
  isNamed : node.isNamed = true
  noParts : node.ConsistsOf []

end Node

namespace BindingPattern

/-- A node is the syntax tree of a pattern.  A name is an identifier or, where
the grammar takes it for the value, the word `undefined`. -/
inductive IsTree (text : Node → String) : BindingPattern → Node → Prop where
  | name {identifier : String} {tree : Node}
      (word : tree.IsWord "identifier") (spelled : text tree = identifier) :
      IsTree text (.name identifier) tree
  | undefined {tree : Node}
      (word : tree.IsWord "undefined") (spelled : text tree = "undefined") :
      IsTree text (.name "undefined") tree
  | shorthand {identifier : String} {tree : Node}
      (word : tree.IsWord "shorthand_property_identifier_pattern")
      (spelled : text tree = identifier) :
      IsTree text (.shorthand identifier) tree
  | pair {target : BindingPattern} {tree key value : Node}
      (kind : tree.kind = "pair_pattern")
      (consists : tree.ConsistsOf [key, value])
      (keyField : key.field = some "key")
      (valueField : value.field = some "value")
      (isTree : IsTree text target value) : IsTree text (.pair key target) tree
  | defaulted {target : BindingPattern} {tree left value : Node}
      (kind : tree.kind = "object_assignment_pattern" ∨
        tree.kind = "assignment_pattern")
      (consists : tree.ConsistsOf [left, value])
      (leftField : left.field = some "left")
      (valueField : value.field = some "right")
      (isTree : IsTree text target left) :
      IsTree text (.defaulted target value) tree
  | rest {target : BindingPattern} {tree part : Node}
      (kind : tree.kind = "rest_pattern") (consists : tree.ConsistsOf [part])
      (noField : part.field = none) (isTree : IsTree text target part) :
      IsTree text (.rest target) tree
  | object {members : List BindingPattern} {tree : Node} {parts : List Node}
      (kind : tree.kind = "object_pattern") (consists : tree.ConsistsOf parts)
      (noField : ∀ part ∈ parts, part.field = none)
      (areTrees : List.Forall₂ (IsTree text) members parts) :
      IsTree text (.object members) tree
  | array {elements : List BindingPattern} {tree : Node} {parts : List Node}
      (kind : tree.kind = "array_pattern") (consists : tree.ConsistsOf parts)
      (noField : ∀ part ∈ parts, part.field = none)
      (areTrees : List.Forall₂ (IsTree text) elements parts) :
      IsTree text (.array elements) tree

end BindingPattern

/-! ## Identifiers outside of keys and default values -/

namespace Node

/-- Whether a node is a property key or a default value. -/
def isAside (node : Node) : Bool :=
  node.field = some "key" || node.field = some "right"

/-- The nodes of a tree in preorder, but for keys and default values below its
root and what stands in them. -/
def targets (tree : Node) : List Node :=
  tree :: (unprunedAll isAside (some tree) tree.children).map (·.node)

/-- Whether a node is an identifier that stands for itself. -/
def isBinder (node : Node) : Bool :=
  node.isNamed && (node.kind = "identifier" ||
    node.kind = "shorthand_property_identifier_pattern" ||
    node.kind = "undefined")

/-- The identifiers of a tree that stand outside of keys and default values, in
the order of the text. -/
def binders (tree : Node) : List Node := tree.targets.filter isBinder

theorem targets_eq (tree : Node) :
    tree.targets = tree :: tree.children.flatMap fun child =>
      if child.isAside then [] else child.targets := by
  rw [targets, unprunedAll_eq_flatMap, List.map_flatMap]
  congr 2
  funext child
  rw [unpruned_eq]
  split
  · rfl
  · rfl

theorem binders_eq (tree : Node) :
    tree.binders = (if tree.isBinder then [tree] else []) ++
      tree.children.flatMap fun child =>
        if child.isAside then [] else child.binders := by
  have below : (fun child : Node =>
      (if child.isAside then [] else child.targets).filter isBinder) =
        fun child => if child.isAside then [] else child.binders := by
    funext child
    split
    · rfl
    · rfl
  rw [binders, targets_eq, List.filter_cons, List.filter_flatMap, below]
  split
  · rfl
  · rfl

variable {tree node part : Node} {parts : List Node}

theorem isBinder_eq_false
    (other : node.isNamed = false ∨ node.isComment = true) :
    node.isBinder = false := by
  rcases other with token | comment
  · simp [isBinder, token]
  · rcases isComment_iff.mp comment with kind | kind <;> simp [isBinder, kind]

theorem isAside_eq_false (noField : node.field = none) :
    node.isAside = false := by
  simp [isAside, noField]

/-- Of the children of a node only its parts hold identifiers. -/
theorem ConsistsOf.binders_eq (consists : tree.ConsistsOf parts) :
    tree.binders = (if tree.isBinder then [tree] else []) ++
      parts.flatMap fun part => if part.isAside then [] else part.binders := by
  have nothing : ∀ child ∈ tree.children,
      (!child.isComment && child.isNamed) = false →
        (if child.isAside then [] else child.binders) = [] := by
    intro child member other
    rw [Bool.and_eq_false_iff, Bool.not_eq_false', or_comm] at other
    obtain ⟨_, leaf⟩ := consists.between child member other
    rw [Node.binders_eq child, leaf, isBinder_eq_false other]
    simp
  rw [Node.binders_eq, ← consists.parts_eq, Node.parts, namedChildren,
    List.filter_filter, flatMap_filter_eq nothing]

theorem ConsistsOf.mem_children (consists : tree.ConsistsOf parts)
    (member : part ∈ parts) : part ∈ tree.children := by
  rw [← consists.parts_eq] at member
  exact (List.mem_filter.mp (List.mem_filter.mp member).1).1

/-- A field of a node is filled by one of its parts. -/
theorem ConsistsOf.childByField_eq (consists : tree.ConsistsOf parts)
    (field : String) :
    tree.childByField field =
      parts.find? fun part => part.field = some field := by
  rw [← consists.parts_eq, Node.parts, namedChildren, List.filter_filter,
    List.find?_filter, childByField]
  apply List.find?_congr
  intro child member
  cases fills : decide (child.field = some field) with
  | false => simp
  | true =>
      have isPart : (!child.isComment && child.isNamed) = true := by
        by_contra other
        rw [Bool.not_eq_true, Bool.and_eq_false_iff, Bool.not_eq_false',
          or_comm] at other
        obtain ⟨noField, _⟩ := consists.between child member other
        simp [noField] at fills
      simp [isPart]

/-- Comments bind nothing. -/
theorem ConsistsOf.flatMap_patternNames (consists : tree.ConsistsOf parts)
    (text : Node → String) :
    tree.namedChildren.flatMap (patternNames text) =
      parts.flatMap (patternNames text) := by
  rw [← consists.parts_eq, Node.parts, flatMap_filter_eq]
  intro child _ comment
  rw [Bool.not_eq_false', isComment_iff] at comment
  rw [patternNames_eq]
  rcases comment with kind | kind <;> simp [kind]

/-- Identifiers outside of keys and default values come in the order in which a
walk meets them. -/
theorem binders_sublist_preorder (tree : Node) :
    tree.binders.Sublist tree.preorder := by
  have inOrder : tree.targets.Sublist tree.preorder := by
    induction tree using Node.treeInduction with
    | step tree ih =>
      rw [targets_eq, preorder_eq, preorderAll_eq_flatMap]
      apply List.Sublist.cons_cons
      apply List.Sublist.flatMap_right
      intro child member
      split
      · exact List.nil_sublist _
      · exact ih child member
  exact List.filter_sublist.trans inOrder

theorem IsWord.binders_eq {kind : String} (word : tree.IsWord kind)
    (binder : tree.isBinder = true) : tree.binders = [tree] := by
  rw [word.noParts.binders_eq, if_pos binder, List.flatMap_nil,
    List.append_nil]

end Node

/-! ## What is listed for a pattern -/

/-- A tree writes identifiers outside of keys and default values.  All of them
are listed but those that are nodes of the kind `undefined`. -/
structure Writes (text : Node → String) (tree : Node)
    (identifiers : List String) : Prop where
  written : identifiers = tree.binders.map text
  listed : patternNames text tree =
    (tree.binders.filter (·.kind ≠ "undefined")).map text
  spelled : ∀ binder ∈ tree.binders, binder.kind = "undefined" →
    text binder = "undefined"

section Writes

variable {text : Node → String} {tree part : Node} {parts : List Node}
  {identifiers : List String} {patterns : List BindingPattern}

theorem writes_word {kind : String} (word : tree.IsWord kind)
    (isName : kind = "identifier" ∨
      kind = "shorthand_property_identifier_pattern") :
    Writes text tree [text tree] := by
  rw [← word.kind_eq] at isName
  have binders_eq : tree.binders = [tree] := by
    apply word.binders_eq
    rcases isName with kind | kind <;>
      simp [Node.isBinder, word.isNamed, kind]
  have notUndefined : tree.kind ≠ "undefined" := by
    rcases isName with kind | kind <;> simp [kind]
  refine ⟨?_, ?_, ?_⟩
  · rw [binders_eq, List.map_singleton]
  · rw [binders_eq, patternNames_eq, if_pos isName]
    simp [notUndefined]
  · intro binder member isUndefined
    rw [binders_eq, List.mem_singleton] at member
    exact absurd (member ▸ isUndefined) notUndefined

theorem writes_undefined (word : tree.IsWord "undefined")
    (spelled : text tree = "undefined") : Writes text tree ["undefined"] := by
  have binders_eq : tree.binders = [tree] := by
    apply word.binders_eq
    simp [Node.isBinder, word.isNamed, word.kind_eq]
  refine ⟨?_, ?_, ?_⟩
  · rw [binders_eq, List.map_singleton, spelled]
  · rw [binders_eq, patternNames_eq]
    simp [word.kind_eq]
  · intro binder member _
    rw [binders_eq, List.mem_singleton] at member
    rw [member, spelled]

/-- A pattern that only holds another one writes what that one writes. -/
theorem Writes.pass (writes : Writes text part identifiers)
    (binders_eq : tree.binders = part.binders)
    (names_eq : patternNames text tree = patternNames text part) :
    Writes text tree identifiers where
  written := by rw [binders_eq, writes.written]
  listed := by rw [binders_eq, names_eq, writes.listed]
  spelled := by
    rw [binders_eq]
    exact writes.spelled

theorem exists_writes
    (each : List.Forall₂ (fun pattern part =>
      Writes text part (BindingPattern.identifiers pattern)) patterns parts) :
    ∀ part ∈ parts, ∃ identifiers, Writes text part identifiers := by
  induction each with
  | nil => nofun
  | cons writes _ ih => exact List.forall_mem_cons.mpr ⟨⟨_, writes⟩, ih⟩

theorem flatMap_identifiers_eq
    (each : List.Forall₂ (fun pattern part =>
      Writes text part (BindingPattern.identifiers pattern)) patterns parts) :
    patterns.flatMap BindingPattern.identifiers =
      (parts.flatMap Node.binders).map text := by
  induction each with
  | nil => rfl
  | cons writes _ ih =>
      rw [List.flatMap_cons, List.flatMap_cons, List.map_append, ih,
        writes.written]

/-- A pattern with several parts writes what they write, one after another. -/
theorem writes_parts
    (kind : tree.kind = "object_pattern" ∨ tree.kind = "array_pattern")
    (consists : tree.ConsistsOf parts)
    (noField : ∀ part ∈ parts, part.field = none)
    (each : List.Forall₂ (fun pattern part =>
      Writes text part (BindingPattern.identifiers pattern)) patterns parts) :
    Writes text tree (patterns.flatMap BindingPattern.identifiers) := by
  have binders_eq : tree.binders = parts.flatMap Node.binders := by
    have notBinder : tree.isBinder = false := by
      rcases kind with kind | kind <;> simp [Node.isBinder, kind]
    rw [consists.binders_eq, notBinder, if_neg Bool.false_ne_true,
      List.nil_append]
    apply List.flatMap_congr
    intro part member
    rw [Node.isAside_eq_false (noField part member), if_neg Bool.false_ne_true]
  have names_eq : patternNames text tree =
      parts.flatMap (patternNames text) := by
    rw [← consists.flatMap_patternNames, patternNames_eq]
    rcases kind with kind | kind <;> simp [kind]
  refine ⟨?_, ?_, ?_⟩
  · rw [binders_eq, flatMap_identifiers_eq each]
  · rw [binders_eq, names_eq, List.filter_flatMap, List.map_flatMap]
    apply List.flatMap_congr
    intro part member
    obtain ⟨_, writes⟩ := exists_writes each part member
    exact writes.listed
  · intro binder member
    rw [binders_eq, List.mem_flatMap] at member
    obtain ⟨part, among, inside⟩ := member
    obtain ⟨_, writes⟩ := exists_writes each part among
    exact writes.spelled binder inside

end Writes

namespace BindingPattern

variable {text : Node → String} {pattern : BindingPattern} {tree : Node}

/-- The trees of the parts of a pattern are children of its tree, on which the
induction goes. -/
theorem IsTree.writes (isTree : pattern.IsTree text tree) :
    Writes text tree pattern.identifiers := by
  induction tree using Node.treeInduction generalizing pattern with
  | step tree ih =>
    have each {patterns : List BindingPattern} {parts : List Node}
        (consists : tree.ConsistsOf parts)
        (areTrees : List.Forall₂ (IsTree text) patterns parts) :
        List.Forall₂ (fun pattern part => Writes text part pattern.identifiers)
          patterns parts := by
      refine List.forall₂_iff_zip.mpr ⟨areTrees.length_eq, ?_⟩
      intro pattern part paired
      have member := consists.mem_children (List.of_mem_zip paired).2
      exact ih part member (List.forall₂_zip areTrees paired)
    cases isTree with
    | name word spelled => exact spelled ▸ writes_word word (.inl rfl)
    | undefined word spelled => exact writes_undefined word spelled
    | shorthand word spelled => exact spelled ▸ writes_word word (.inr rfl)
    | @pair _ _ key value kind consists keyField valueField isTree =>
        have field : tree.childByField "value" = some value := by
          rw [consists.childByField_eq]
          simp [keyField, valueField]
        apply (ih value (List.mem_of_find?_eq_some field) isTree).pass
        · rw [consists.binders_eq]
          simp [Node.isBinder, Node.isAside, kind, keyField, valueField]
        · rw [patternNames_eq]
          simp [kind, field]
    | @defaulted _ _ left value kind consists leftField valueField isTree =>
        have field : tree.childByField "left" = some left := by
          rw [consists.childByField_eq]
          simp [leftField]
        apply (ih left (List.mem_of_find?_eq_some field) isTree).pass
        · rw [consists.binders_eq]
          rcases kind with kind | kind <;>
            simp [Node.isBinder, Node.isAside, kind, leftField, valueField]
        · rw [patternNames_eq]
          rcases kind with kind | kind <;> simp [kind, field]
    | @rest _ _ part kind consists noField isTree =>
        have member := consists.mem_children (List.mem_singleton_self part)
        apply (ih part member isTree).pass
        · rw [consists.binders_eq]
          simp [Node.isBinder, Node.isAside, kind, noField]
        · rw [patternNames_eq]
          simp [kind, consists.flatMap_patternNames]
    | object kind consists noField areTrees =>
        rw [identifiers, identifiersAll_eq_flatMap]
        exact writes_parts (.inl kind) consists noField (each consists areTrees)
    | array kind consists noField areTrees =>
        rw [identifiers, identifiersAll_eq_flatMap]
        exact writes_parts (.inr kind) consists noField (each consists areTrees)

/-- The identifiers that a pattern binds are those that its tree holds outside of
keys and default values, in the order of the text.  The names listed for the tree
are these, but for words that the grammar takes for the undefined value; a
pattern that does not bind `undefined` has no such word. -/
theorem IsTree.patternNames_exact (isTree : pattern.IsTree text tree) :
    pattern.identifiers = tree.binders.map text ∧
    patternNames text tree =
      (tree.binders.filter (·.kind ≠ "undefined")).map text ∧
    ("undefined" ∉ pattern.identifiers →
      patternNames text tree = pattern.identifiers) ∧
    (tree.IsOrdered →
      tree.binders.Pairwise fun left right => left.start ≤ right.start) := by
  have writes := isTree.writes
  refine ⟨writes.written, writes.listed, ?_, ?_⟩
  · intro unbound
    have kept : tree.binders.filter (·.kind ≠ "undefined") = tree.binders := by
      rw [List.filter_eq_self]
      intro binder member
      apply decide_eq_true
      intro isUndefined
      apply unbound
      rw [writes.written, ← writes.spelled binder member isUndefined]
      exact List.mem_map_of_mem member
    rw [writes.listed, kept, writes.written]
  · intro ordered
    exact ordered.starts_ascend.sublist tree.binders_sublist_preorder

end BindingPattern

/-! ### Two patterns -/

/-- A token, which the grammar writes as literal text. -/
def Node.token (text : String) (start stop : Nat) : Node :=
  ⟨text, false, false, start, stop, none, []⟩

/-- The key `[k]`. -/
def computedKey : Node :=
  .named "computed_property_name" 30 33 "key" [
    .token "[" 30 31, .named "identifier" 31 32 none [], .token "]" 32 33]

/-- The tree of the pattern `a: { b /* b */ = k }`. -/
def plainPairTree : Node :=
  .named "pair_pattern" 8 28 none [
    .named "property_identifier" 8 9 "key" [],
    .token ":" 9 10,
    .named "object_pattern" 11 28 "value" [
      .token "\x7b" 11 12,
      .named "object_assignment_pattern" 13 26 none [
        .named "shorthand_property_identifier_pattern" 13 14 "left" [],
        .named "comment" 15 22 none [],
        .token "=" 23 24,
        .named "identifier" 25 26 "right" []],
      .token "\x7d" 27 28]]

/-- The tree of the pattern `[k]: [c = b, , ...[e]]`. -/
def computedPairTree : Node :=
  .named "pair_pattern" 30 52 none [
    computedKey,
    .token ":" 33 34,
    .named "array_pattern" 35 52 "value" [
      .token "[" 35 36,
      .named "assignment_pattern" 36 41 none [
        .named "identifier" 36 37 "left" [],
        .token "=" 38 39,
        .named "identifier" 40 41 "right" []],
      .token "," 41 42,
      .token "," 43 44,
      .named "rest_pattern" 45 51 none [
        .token "..." 45 48,
        .named "array_pattern" 48 51 none [
          .token "[" 48 49,
          .named "identifier" 49 50 none [],
          .token "]" 50 51]],
      .token "]" 51 52]]

/-- The tree of a pattern with both pairs and the rest `...d`. -/
def pairsTree : Node :=
  .named "object_pattern" 6 60 "name" [
    .token "\x7b" 6 7,
    plainPairTree,
    .token "," 28 29,
    computedPairTree,
    .token "," 52 53,
    .named "rest_pattern" 54 58 none [
      .token "..." 54 57, .named "identifier" 57 58 none []],
    .token "\x7d" 59 60]

/-- The tree of the pattern `[undefined]`. -/
def undefinedTree : Node :=
  .named "array_pattern" 66 77 "name" [
    .token "[" 66 67, .named "undefined" 67 76 none [], .token "]" 76 77]

/-- A module that declares variables by both patterns. -/
def takingApart : Module :=
  ⟨⟨["a.mjs"]⟩, Text.Utf8.encode
      ("const \x7b a: \x7b b /* b */ = k \x7d, " ++
        "[k]: [c = b, , ...[e]], ...d \x7d = o, [undefined] = d;\n"),
    .javascript, .named "program" 0 83 none [
      .named "lexical_declaration" 0 82 none [
        .token "const" 0 5,
        .named "variable_declarator" 6 64 none [
          pairsTree, .token "=" 61 62, .named "identifier" 63 64 "value" []],
        .token "," 64 65,
        .named "variable_declarator" 66 81 none [
          undefinedTree, .token "=" 78 79, .named "identifier" 80 81 "value" []],
        .token ";" 81 82]]⟩

/-- The first of the patterns. -/
def pairsPattern : BindingPattern :=
  .object [
    .pair (.named "property_identifier" 8 9 "key" [])
      (.object [
        .defaulted (.shorthand "b") (.named "identifier" 25 26 "right" [])]),
    .pair computedKey
      (.array [
        .defaulted (.name "c") (.named "identifier" 40 41 "right" []),
        .rest (.array [.name "e"])]),
    .rest (.name "d")]

theorem isTree_pairsTree :
    pairsPattern.IsTree takingApart.text pairsTree := by
  refine .object rfl ⟨rfl, by decide⟩ (by decide)
    (.cons ?_ (.cons ?_ (.cons ?_ .nil)))
  · refine .pair rfl ⟨rfl, by decide⟩ rfl rfl ?_
    refine .object rfl ⟨rfl, by decide⟩ (by decide) (.cons ?_ .nil)
    refine .defaulted (.inl rfl) ⟨rfl, by decide⟩ rfl rfl ?_
    exact .shorthand ⟨rfl, rfl, rfl, nofun⟩ (by decide)
  · refine .pair rfl ⟨rfl, by decide⟩ rfl rfl ?_
    refine .array rfl ⟨rfl, by decide⟩ (by decide) (.cons ?_ (.cons ?_ .nil))
    · refine .defaulted (.inr rfl) ⟨rfl, by decide⟩ rfl rfl ?_
      exact .name ⟨rfl, rfl, rfl, nofun⟩ (by decide)
    · refine .rest rfl ⟨rfl, by decide⟩ rfl ?_
      refine .array rfl ⟨rfl, by decide⟩ (by decide) (.cons ?_ .nil)
      exact .name ⟨rfl, rfl, rfl, nofun⟩ (by decide)
  · refine .rest rfl ⟨rfl, by decide⟩ rfl ?_
    exact .name ⟨rfl, rfl, rfl, nofun⟩ (by decide)

theorem isTree_undefinedTree :
    BindingPattern.IsTree takingApart.text (.array [.name "undefined"])
      undefinedTree := by
  refine .array rfl ⟨rfl, by decide⟩ (by decide) (.cons ?_ .nil)
  exact .undefined ⟨rfl, rfl, rfl, nofun⟩ (by decide)

theorem isOrdered_pairsTree : pairsTree.IsOrdered := by
  apply Node.isOrdered_of_visits
  decide

/-- Of the first pattern all identifiers are listed, none of them for a key or a
default value.  Of the second pattern the only identifier is not listed. -/
theorem patternNames_exact_takingApart :
    pairsPattern.IsTree takingApart.text pairsTree ∧
    patternNames takingApart.text pairsTree = ["b", "c", "e", "d"] ∧
    (pairsTree.binders.map (·.start)).Pairwise (· ≤ ·) ∧
    ∃ pattern : BindingPattern,
      pattern.IsTree takingApart.text undefinedTree ∧
      pattern.identifiers = ["undefined"] ∧
      patternNames takingApart.text undefinedTree = [] := by
  have first := isTree_pairsTree.patternNames_exact
  have second := isTree_undefinedTree.patternNames_exact
  refine ⟨isTree_pairsTree, first.2.2.1 (by decide),
    List.pairwise_map.mpr (first.2.2.2 isOrdered_pairsTree), _,
    isTree_undefinedTree, rfl, ?_⟩
  rw [second.2.1]
  rfl

end ExportAudit
