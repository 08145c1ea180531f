import Mathlib.Order.Bounds.Defs
import ExportAudit.Proofs.Module.Loading
import ExportAudit.Proofs.Syntax.Range

/-!
# The line of a fault

A file whose tree is flagged by the parser fails to load, and the failure names
the line of the first fault that a walk meets.  Where the flag says whether the
tree has a fault, the search finds one in every flagged tree; it is the fault
that starts first if the nodes of the tree lie in order.  A file whose tree has
no fault loads.
-/

namespace ExportAudit

/-- On a line of a file there starts a node that marks an error or stands for a
missing token. -/
def Content.FaultsOn (content : Content) (line : Nat) : Prop :=
  ∃ parent node, content.tree.Occurs parent node ∧
    (node.kind = "ERROR" ∨ node.isMissing = true) ∧
    Module.lineAt content.bytes node.start = line

/-- The parser flags the tree of a file exactly if a node of it marks an error
or stands for a missing token. -/
def Content.FlagsFaults (content : Content) : Prop :=
  content.hasError = true ↔
    ∃ parent node, content.tree.Occurs parent node ∧
      (node.kind = "ERROR" ∨ node.isMissing = true)

theorem Content.FlagsFaults.hasError_iff {content : Content}
    (flags : content.FlagsFaults) :
    content.hasError = true ↔ ∃ line, content.FaultsOn line := by
  refine flags.trans ⟨?_, ?_⟩
  · rintro ⟨parent, node, occurs, isFault⟩
    exact ⟨_, parent, node, occurs, isFault, rfl⟩
  · rintro ⟨_, parent, node, occurs, isFault, _⟩
    exact ⟨parent, node, occurs, isFault⟩

theorem Node.isFault_iff {node : Node} :
    node.isFault = true ↔ node.kind = "ERROR" ∨ node.isMissing = true := by
  rw [isFault, Bool.or_eq_true, decide_eq_true_eq]

namespace Module

theorem lineAt_mono (source : List UInt8) {left right : Nat}
    (notAfter : left ≤ right) : lineAt source left ≤ lineAt source right :=
  Nat.succ_le_succ ((List.take_prefix_take_left notAfter).sublist.count_le _)

/-- Among nodes by ascending starts a search finds the one that starts first. -/
theorem start_le_of_find? {select : Node → Bool} {nodes : List Node}
    {first other : Node}
    (ascend : nodes.Pairwise fun earlier later => earlier.start ≤ later.start)
    (found : nodes.find? select = some first) (listed : other ∈ nodes)
    (selected : select other = true) : first.start ≤ other.start := by
  obtain ⟨_, before, after, split, passed⟩ :=
    List.find?_eq_some_iff_append.mp found
  rw [split, List.pairwise_append, List.pairwise_cons] at ascend
  rw [split, List.mem_append, List.mem_cons] at listed
  cases listed with
  | inl earlier =>
      have unselected := passed other earlier
      rw [selected] at unselected
      cases unselected
  | inr listed =>
      cases listed with
      | inl same => exact same ▸ Nat.le_refl _
      | inr later => exact ascend.2.1.1 other later

variable {store : Store} {location : Location} {language : Language}
  {content : Content}

/-- The first fault of an ordered tree is on the least line with a fault. -/
theorem isLeast_firstFault? (ordered : content.tree.IsOrdered) {fault : Node}
    (found : firstFault? content.tree = some fault) :
    IsLeast {line | content.FaultsOn line}
      (lineAt content.bytes fault.start) := by
  rw [firstFault?, Node.walk_eq_preorder] at found
  constructor
  · obtain ⟨parent, occurs⟩ := Node.mem_preorder.mp (List.mem_of_find?_eq_some found)
    have isFault := List.find?_some found
    exact ⟨parent, fault, occurs, Node.isFault_iff.mp isFault, rfl⟩
  · rintro line ⟨parent, node, occurs, isFault, line_eq⟩
    rw [← line_eq]
    apply lineAt_mono
    exact start_le_of_find? ordered.starts_ascend found
      (Node.mem_preorder.mpr ⟨parent, occurs⟩) (Node.isFault_iff.mpr isFault)

/-- The search finds a fault exactly if some line has one. -/
theorem firstFault?_eq_none_iff :
    firstFault? content.tree = none ↔ ¬ ∃ line, content.FaultsOn line := by
  rw [firstFault?, Node.walk_eq_preorder, List.find?_eq_none]
  constructor
  · rintro sound ⟨_, parent, node, occurs, isFault, _⟩
    exact sound node (Node.mem_preorder.mpr ⟨parent, occurs⟩)
      (Node.isFault_iff.mpr isFault)
  · intro sound node listed isFault
    obtain ⟨parent, occurs⟩ := Node.mem_preorder.mp listed
    exact sound ⟨_, parent, node, occurs, Node.isFault_iff.mp isFault, rfl⟩

/-- A readable file whose tree lies in order fails to load with the first line
that has a fault, if a line has one, and is loaded otherwise. -/
theorem load_of_readable
    (known : Language.ofSuffix? location.suffix = some language)
    (found : store.find? location = some (.file content))
    (readable : (Text.Utf8.decode? content.bytes).isSome = true)
    (flags : content.FlagsFaults) (ordered : content.tree.IsOrdered) :
    ((∃ line, content.FaultsOn line) →
      ∃ error line, load store location = .error error ∧
        error.line? = some line ∧ IsLeast {line | content.FaultsOn line} line) ∧
    ((¬ ∃ line, content.FaultsOn line) →
      load store location =
        .ok ⟨location, content.bytes, language, content.tree⟩) := by
  have isText : ¬ (Text.Utf8.decode? content.bytes).isNone = true := by
    rwa [Bool.not_eq_true, Option.isNone_eq_false_iff]
  rw [load_eq_ofContent known found, ofContent, if_neg isText]
  constructor
  · intro faulty
    rw [if_pos (flags.hasError_iff.mpr faulty)]
    -- The flag and the search agree: what is flagged has a first fault.
    obtain ⟨fault, first⟩ :
        ∃ fault, firstFault? content.tree = some fault := by
      apply Option.ne_none_iff_exists'.mp
      exact fun nothing => firstFault?_eq_none_iff.mp nothing faulty
    rw [first]
    exact ⟨_, _, rfl, rfl, isLeast_firstFault? ordered first⟩
  · intro sound
    rw [if_neg (mt flags.hasError_iff.mp sound)]

/-! ### A call that is not closed, before another fault -/

/-- A call without its closing bracket, and a line that is no statement. -/
def unclosed : Content where
  bytes := Text.Utf8.encode "f(\n;\n?\n"
  tree :=
    .named "program" 0 7 none [
      .named "expression_statement" 0 4 none [
        .named "call_expression" 0 3 none [
          .named "identifier" 0 1 "function" [],
          .named "arguments" 1 3 "arguments" [
            ⟨"(", false, false, 1, 2, none, []⟩,
            ⟨")", false, true, 3, 3, none, []⟩]],
        ⟨";", false, false, 3, 4, none, []⟩],
      .named "ERROR" 5 6 none [⟨"?", false, false, 5, 6, none, []⟩]]
  hasError := true

theorem isOrdered_unclosed : unclosed.tree.IsOrdered :=
  Node.isOrdered_of_visits (by decide)

theorem firstFault?_unclosed :
    firstFault? unclosed.tree = some ⟨")", false, true, 3, 3, none, []⟩ := by
  rw [firstFault?_eq]
  rfl

/-- Of the faults on two lines the failure names the first line. -/
theorem load_of_readable_unclosed :
    unclosed.tree.IsOrdered ∧ unclosed.FaultsOn 2 ∧ unclosed.FaultsOn 3 ∧
      load (Store.empty.write ⟨["a.ts"]⟩ unclosed) ⟨["a.ts"]⟩ =
        .error (.syntaxFault (some 2)) ∧
      ∃ error line,
        load (Store.empty.write ⟨["a.ts"]⟩ unclosed) ⟨["a.ts"]⟩ =
          .error error ∧
        error.line? = some line ∧
        IsLeast {line | unclosed.FaultsOn line} line := by
  have known : Language.ofSuffix? (⟨["a.ts"]⟩ : Location).suffix =
      some .typescript := rfl
  have found : (Store.empty.write ⟨["a.ts"]⟩ unclosed).find? ⟨["a.ts"]⟩ =
      some (.file unclosed) := rfl
  have readable : (Text.Utf8.decode? unclosed.bytes).isSome = true := by
    rw [unclosed, Text.Utf8.decode?_encode]
    rfl
  have second : unclosed.FaultsOn 2 :=
    (isLeast_firstFault? isOrdered_unclosed firstFault?_unclosed).1
  have flags : unclosed.FlagsFaults :=
    iff_of_true rfl ⟨_, _, .child .root
      (List.mem_cons_of_mem _ (List.mem_cons_self ..)), .inl rfl⟩
  have third : unclosed.FaultsOn 3 :=
    ⟨_, _, .child .root (List.mem_cons_of_mem _ (List.mem_cons_self ..)),
      .inl rfl, rfl⟩
  exact ⟨isOrdered_unclosed, second, third,
    load_eq_syntaxFault known found firstFault?_unclosed,
    (load_of_readable known found readable flags isOrdered_unclosed).1
      ⟨2, second⟩⟩

end Module

end ExportAudit
