import ExportAudit.Project
import ExportAudit.Proofs.Pattern.Reaching
import ExportAudit.Proofs.Pattern.Wide

/-!
# Patterns that exclude

An exclude pattern matches the relative path of a file, or of a directory above
it, as one text; an include pattern matches it name by name.  The two agree on a
pattern whose `**` stand first or last and whose other wildcards take in no
slash.
-/

namespace ExportAudit.Pattern

/-- A pattern read as one text matches some names joined by slashes, or the
first of them. -/
def Covers (tokens : List Token) (names : List (List Char)) : Prop :=
  ∃ covered below, names = covered ++ below ∧ covered ≠ [] ∧
    accepts tokens (joined covered) = true

/-- Wildcards in components take in no slash where a match ignores the borders
of names.  Any text is harmless directly after `**` and at the end. -/
inductive Rigid : (afterDeep : Bool) → List Component → Prop where
  | done {afterDeep : Bool} : Rigid afterDeep []
  | deep {afterDeep : Bool} {rest : List Component} (others : Rigid true rest) :
      Rigid afterDeep (.deep :: rest)
  | entry {afterDeep : Bool} {opening firm closing : List Token}
      {rest : List Component}
      (start : opening = [] ∨ afterDeep = true ∧ opening = [.anyText])
      (finish : closing = [] ∨ rest = [] ∧ closing = [.anyText])
      (noSlash : ∀ token ∈ firm, token.takes '/' = false)
      (others : Rigid false rest) :
      Rigid afterDeep (.entry (opening ++ (firm ++ closing)) :: rest)

namespace Anchored

/-- Every `**` of a pattern stands first or last. -/
def HasOuterDeep (anchored : Anchored) : Prop :=
  ['*', '*'] ∉ anchored.parts.tail.dropLast

/-- The wildcards of a pattern, if it has any, take in no slash, and none stands
at its end. -/
def TakesNoSlash (anchored : Anchored) : Prop :=
  hasWildcard anchored.pattern = true →
    anchored.pattern.getLast? ≠ some '/' ∧
      Rigid false (anchored.parts.map .named)

end Anchored

/-! ## Matching relative paths -/

/-- A pattern, or the pattern for what is below it, matches a relative path
exactly if it covers its names. -/
theorem covers_iff {candidate : List Char} {texts : List (List Char)}
    (some : texts ≠ []) (noSlash : ∀ text ∈ texts, '/' ∉ text) :
    (isMatch candidate (joined texts) ||
        isMatch (candidate ++ ['/', '*']) (joined texts)) = true ↔
      Covers (tokens candidate) texts := by
  have below : tokens (candidate ++ ['/', '*']) =
      tokens candidate ++ [.literal '/', .anyText] := by
    rw [tokens_append (by decide) (by decide)]
    simp [tokens]
  simp only [isMatch, Bool.or_eq_true, below]
  constructor
  · intro matched
    cases matched with
    | inl whole => exact ⟨texts, [], (List.append_nil texts).symm, some, whole⟩
    | inr inside =>
        obtain ⟨left, ends, same, known, later⟩ := accepts_append.mp inside
        obtain ⟨right, slash, _⟩ := accepts_literal.mp later
        rw [slash] at same
        obtain ⟨covered, others, split, nonempty, _, first, _⟩ :=
          exists_cut_at_slash noSlash same
        exact ⟨covered, others, split, nonempty, first ▸ known⟩
  · intro covers
    obtain ⟨covered, others, split, nonempty, known⟩ := covers
    by_cases none : others = []
    · rw [none, List.append_nil] at split
      exact .inl (split ▸ known)
    · refine .inr (accepts_append.mpr ⟨joined covered, '/' :: joined others,
        ?_, known, ?_⟩)
      · rw [split, joined_append nonempty none]
      · exact accepts_literal.mpr ⟨_, rfl, accepts_any _⟩

section Excluding

variable {directory file : Location} {pattern : String}

/-- Which files below its directory a regular pattern excludes. -/
theorem excludes_iff (regular : (anchor directory pattern).IsRegular)
    {names : List String} (some : names ≠ [])
    (noSlash : ∀ name ∈ names, '/' ∉ name.toList)
    (way : (anchor directory pattern).base.names ++ names = file.names) :
    excludes directory pattern file = true ↔
      (anchor directory pattern).body = ['.'] ∨
        Covers (tokens (anchor directory pattern).body)
          (names.map String.toList) ∨
        ∃ rest, (anchor directory pattern).body = '*' :: '*' :: '/' :: rest ∧
          Covers (tokens rest) (names.map String.toList) := by
  have relative : file.path.relativeTo? (anchor directory pattern).directory =
      .some names := by
    have root : file.path.root = (anchor directory pattern).directory.root :=
      regular.root.symm
    rw [Path.relativeTo?, if_pos root]
    exact List.isPrefixOf?_eq_some_iff_append_eq.mpr way
  have text : (Path.relativeText names).toList =
      joined (names.map String.toList) := by
    have nonempty : names.isEmpty = false := by simpa using some
    rw [Path.relativeText, nonempty, if_neg Bool.false_ne_true, Path.joinNames,
      String.toList_intercalate]
    rfl
  have covered : ∀ candidate,
      (isMatch candidate (joined (names.map String.toList)) ||
        isMatch (candidate ++ ['/', '*'])
          (joined (names.map String.toList))) = true ↔
        Covers (tokens candidate) (names.map String.toList) := by
    intro candidate
    exact covers_iff (by simpa using some) (by simpa using noSlash)
  have nonempty := regular.body_ne_nil
  have body : dropTrailingSlashes (anchor directory pattern).pattern =
      (anchor directory pattern).body := rfl
  unfold excludes
  simp only [relative, text, body]
  rw [Bool.or_eq_true, Bool.or_eq_true, Bool.or_eq_true, covered,
    decide_eq_true_eq, decide_eq_true_eq, or_assoc, or_assoc]
  refine (or_iff_right nonempty).trans (or_congr_right (or_congr_right ?_))
  generalize (anchor directory pattern).body = whole
  split
  · next rest =>
    rw [covered rest]
    constructor
    · intro covers
      exact ⟨rest, rfl, covers⟩
    · intro split
      obtain ⟨other, same, covers⟩ := split
      cases same
      exact covers
  · next otherwise =>
    refine iff_of_false Bool.false_ne_true fun split => ?_
    obtain ⟨rest, same, _⟩ := split
    exact otherwise rest same

end Excluding

/-! ## Included files are excluded -/

theorem named_deep : Component.named ['*', '*'] = .deep := rfl

/-- Names to which the parts of a pattern lead are covered by the pattern, if
`**` stands last only. -/
theorem covers_of_leads {parts : List (List Char)}
    {names below : List (List Char)} (some : parts ≠ [])
    (noUp : ['.', '.'] ∉ parts) (last : ['*', '*'] ∉ parts.dropLast)
    (leads : Leads (parts.map .named) names below) :
    Covers (joinedTokens parts) (names ++ below) := by
  induction parts generalizing names with
  | nil => exact absurd rfl some
  | cons part rest ih =>
      have notUp : part ≠ ['.', '.'] := fun same =>
        noUp (same ▸ List.mem_cons_self)
      have inside := leads.nonempty (by simp)
      by_cases none : rest = []
      · rw [none, joinedTokens_singleton]
        rw [none, List.map_singleton] at leads
        by_cases deep : part = ['*', '*']
        · rw [deep]
          exact ⟨names ++ below, [], (List.append_nil _).symm, inside,
            accepts_deep _⟩
        · rw [named_of_ne deep notUp] at leads
          cases leads with
          | @entry _ _ name _ _ known later =>
              cases later
              refine ⟨[name], below, rfl, List.cons_ne_nil _ _, ?_⟩
              rwa [joined_singleton]
      · rw [List.dropLast_cons_of_ne_nil none] at last
        have notDeep : part ≠ ['*', '*'] := fun same =>
          last (same ▸ List.mem_cons_self)
        rw [List.map_cons, named_of_ne notDeep notUp] at leads
        cases leads with
        | @entry _ _ name others _ known later =>
            obtain ⟨covered, left, split, nonempty, matched⟩ :=
              ih none (fun member => noUp (List.mem_cons_of_mem _ member))
                (fun member => last (List.mem_cons_of_mem _ member)) later
            refine ⟨name :: covered, left, congrArg (name :: ·) split,
              List.cons_ne_nil _ _, ?_⟩
            rw [joined_cons name nonempty]
            exact (accepts_joinedTokens_cons none).mpr
              ⟨name, joined covered, rfl, known, matched⟩

/-- A leading `**` passes names before what the other parts cover, or none. -/
theorem covers_of_leads_deep {parts : List (List Char)}
    {names below : List (List Char)} (some : parts ≠ [])
    (noUp : ['.', '.'] ∉ parts) (last : ['*', '*'] ∉ parts.dropLast)
    (leads : Leads (.deep :: parts.map .named) names below) :
    Covers (joinedTokens parts) (names ++ below) ∨
      Covers (joinedTokens (['*', '*'] :: parts)) (names ++ below) := by
  cases leads with
  | @deep _ above later _ inside others =>
      obtain ⟨covered, left, split, nonempty, matched⟩ :=
        covers_of_leads some noUp last others
      by_cases none : above = []
      · rw [none]
        exact .inl ⟨covered, left, split, nonempty, matched⟩
      · refine .inr ⟨above ++ covered, left, ?_, by simp [none], ?_⟩
        · rw [List.append_assoc, split, List.append_assoc]
        · rw [joined_append none nonempty]
          exact (accepts_joinedTokens_cons some).mpr
            ⟨joined above, joined covered, rfl, accepts_deep _, matched⟩

/-! ## Excluded files are included -/

/-- What an optional `*` in front takes of joined names ends within a name. -/
theorem exists_start {afterDeep : Bool} {opening : List Token}
    {names : List (List Char)} {left right : List Char}
    (start : opening = [] ∨ afterDeep = true ∧ opening = [.anyText])
    (some : names ≠ []) (known : accepts opening left = true)
    (cut : joined names = left ++ right) :
    ∃ before begins ends after, names = before ++ (begins ++ ends) :: after ∧
      (afterDeep = false → before = []) ∧ accepts opening begins = true ∧
      joined (ends :: after) = right := by
  cases start with
  | inl none =>
      rw [none] at known ⊢
      rw [accepts_nil.mp known, List.nil_append] at cut
      cases names with
      | nil => exact absurd rfl some
      | cons name others =>
          exact ⟨[], [], name, others, rfl, fun _ => rfl, rfl, cut⟩
  | inr any =>
      obtain ⟨before, begins, ends, after, split, later⟩ := exists_cut some cut
      refine ⟨before, begins, ends, after, split, ?_, ?_, later⟩
      · rw [any.1]
        nofun
      · rw [any.2]
        exact accepts_any begins

/-- A rigid component in a match of joined names stands for the first of them,
or after `**` for a later one. -/
theorem exists_name {afterDeep : Bool} {opening firm closing : List Token}
    {names : List (List Char)}
    (start : opening = [] ∨ afterDeep = true ∧ opening = [.anyText])
    (finish : closing = [] ∨ closing = [.anyText])
    (noSlash : ∀ token ∈ firm, token.takes '/' = false) (some : names ≠ [])
    (matched : accepts (opening ++ (firm ++ closing)) (joined names) = true) :
    ∃ before name after, names = before ++ name :: after ∧
      (afterDeep = false → before = []) ∧ (closing = [] → after = []) ∧
      accepts (opening ++ (firm ++ closing)) name = true := by
  obtain ⟨left, right, cut, known, later⟩ := accepts_append.mp matched
  obtain ⟨middle, last, same, firmKnown, lastKnown⟩ := accepts_append.mp later
  obtain ⟨before, begins, ends, after, split, first, opened, rest⟩ :=
    exists_start start some known cut
  rw [same] at rest
  obtain ⟨others, whole, final⟩ :=
    exists_opening (not_mem_of_accepts noSlash firmKnown) rest
  have closed : accepts closing others = true ∧ (closing = [] → after = []) := by
    cases finish with
    | inl none =>
        rw [none] at lastKnown ⊢
        rw [accepts_nil.mp lastKnown] at final
        obtain ⟨empty, nothing⟩ := eq_nil_of_joined final
        exact ⟨accepts_nil.mpr empty, fun _ => nothing⟩
    | inr any =>
        rw [any]
        exact ⟨accepts_any others, nofun⟩
  refine ⟨before, begins ++ ends, after, split, first, closed.2, ?_⟩
  exact accepts_append.mpr ⟨begins, ends, rfl, opened,
    accepts_append.mpr ⟨middle, others, whole, firmKnown, closed.1⟩⟩

/-- The parts of a rigid pattern lead past the names that the pattern matches
as one text, or past the first of them. -/
theorem exists_leads_of_accepts {parts names : List (List Char)}
    {afterDeep : Bool} (someParts : parts ≠ []) (someNames : names ≠ [])
    (noUp : ['.', '.'] ∉ parts) (noSlash : ∀ name ∈ names, '/' ∉ name)
    (rigid : Rigid afterDeep (parts.map .named))
    (matched : accepts (joinedTokens parts) (joined names) = true) :
    ∃ above led below, names = above ++ (led ++ below) ∧
      (afterDeep = false → above = []) ∧
      Leads (parts.map .named) led below := by
  induction parts generalizing names afterDeep with
  | nil => exact absurd rfl someParts
  | cons part rest ih =>
      have notUp : part ≠ ['.', '.'] := fun same =>
        noUp (same ▸ List.mem_cons_self)
      have noUpRest : ['.', '.'] ∉ rest := fun member =>
        noUp (List.mem_cons_of_mem _ member)
      by_cases none : rest = []
      · rw [none, joinedTokens_singleton] at matched
        rw [none, List.map_singleton] at rigid ⊢
        by_cases deep : part = ['*', '*']
        · rw [deep, named_deep]
          exact ⟨[], [], names, rfl, fun _ => rfl,
            @Leads.deep _ [] [] names someNames .done⟩
        · rw [named_of_ne deep notUp] at rigid ⊢
          generalize tokens part = own at rigid matched ⊢
          cases rigid with
          | entry start finish firm others =>
              obtain ⟨before, name, after, split, first, _, known⟩ :=
                exists_name start (finish.imp_right And.right) firm someNames
                  matched
              exact ⟨before, [name], after, split, first, .entry known .done⟩
      · obtain ⟨left, right, cut, own, later⟩ :=
          (accepts_joinedTokens_cons none).mp matched
        obtain ⟨before, after, split, someBefore, someAfter, rfl, rfl⟩ :=
          exists_cut_at_slash noSlash cut
        have noSlashAfter : ∀ name ∈ after, '/' ∉ name := fun name member =>
          noSlash name (split ▸ List.mem_append_right before member)
        rw [List.map_cons] at rigid ⊢
        by_cases deep : part = ['*', '*']
        · rw [deep, named_deep] at rigid ⊢
          cases rigid with
          | deep rigid =>
              obtain ⟨above, led, below, others, _, leads⟩ :=
                ih none someAfter noUpRest noSlashAfter rigid later
              have inside := leads.nonempty (by simpa using none)
              refine ⟨[], (before ++ above) ++ led, below, ?_, fun _ => rfl,
                .deep inside leads⟩
              rw [split, others]
              simp
        · rw [named_of_ne deep notUp] at rigid ⊢
          generalize tokens part = own' at rigid own ⊢
          cases rigid with
          | entry start finish firm rigid =>
              have closing := finish.resolve_right fun last =>
                none (by simpa using last.1)
              obtain ⟨above, name, more, first, start', last, known⟩ :=
                exists_name start (.inl closing) firm someBefore own
              obtain ⟨_, led, below, others, empty, leads⟩ :=
                ih none someAfter noUpRest noSlashAfter rigid later
              rw [empty rfl, List.nil_append] at others
              rw [last closing] at first
              refine ⟨above, name :: led, below, ?_, start', .entry known leads⟩
              rw [split, first, others]
              simp

/-! ## Agreement -/

section Agreement

variable {anchored : Anchored}

/-- A pattern is joined of its parts. -/
theorem joined_parts : joined anchored.parts = anchored.body :=
  List.intercalate_splitOn '/'

theorem parts_ne_nil : anchored.parts ≠ [] :=
  List.splitOn_ne_nil '/' anchored.body

/-- What follows a leading `**` is joined of the other parts. -/
theorem tokens_of_parts_deep {rest : List (List Char)} (some : rest ≠ [])
    (parts : anchored.parts = ['*', '*'] :: rest)
    (own : tokens anchored.body = joinedTokens anchored.parts) :
    anchored.body = '*' :: '*' :: '/' :: joined rest ∧
      tokens (joined rest) = joinedTokens rest := by
  have body : anchored.body = '*' :: '*' :: '/' :: joined rest := by
    rw [← joined_parts, parts, joined_cons _ some]
    rfl
  rw [body, parts, joinedTokens_cons _ some] at own
  exact ⟨body, by simpa [tokens] using own⟩

/-- A text after `**/` has the other parts of a pattern. -/
theorem parts_of_body_deep {rest : List Char}
    (body : anchored.body = '*' :: '*' :: '/' :: rest) :
    anchored.parts = ['*', '*'] :: rest.splitOn '/' := by
  have split := List.splitOn_append_cons_self (a := '/') ['*', '*'] rest
  rw [Anchored.parts, body]
  exact split.trans (by rw [List.splitOn_eq_singleton (by decide)]; rfl)

theorem rigid_of_plain {parts : List (List Char)} {afterDeep : Bool}
    (proper : ∀ part ∈ parts, IsPart part)
    (plain : ∀ part ∈ parts, hasWildcard part = false) :
    Rigid afterDeep (parts.map .named) := by
  induction parts generalizing afterDeep with
  | nil => exact .done
  | cons part rest ih =>
      obtain ⟨properPart, properRest⟩ := List.forall_mem_cons.mp proper
      obtain ⟨plainPart, plainRest⟩ := List.forall_mem_cons.mp plain
      have notDeep : part ≠ ['*', '*'] := by
        intro same
        rw [same] at plainPart
        cases plainPart
      have firm : ∀ token ∈ tokens part, token.takes '/' = false := by
        rw [tokens_of_plain plainPart]
        intro token member
        obtain ⟨character, inside, rfl⟩ := List.mem_map.mp member
        refine decide_eq_false fun slash => ?_
        exact properPart.2.2.2 (slash ▸ inside)
      rw [List.map_cons, named_of_ne notDeep properPart.2.2.1]
      have entry := @Rigid.entry afterDeep [] (tokens part) [] _ (.inl rfl)
        (.inl rfl) firm (ih properRest plainRest)
      rwa [List.nil_append, List.append_nil] at entry

/-- A regular pattern covers the names past which its components lead. -/
theorem covers_of_followed (regular : anchored.IsRegular)
    (outer : anchored.HasOuterDeep) {names below : List (List Char)}
    (leads : Leads anchored.followed names below) :
    anchored.body = ['.'] ∨ Covers (tokens anchored.body) (names ++ below) ∨
      ∃ rest, anchored.body = '*' :: '*' :: '/' :: rest ∧
        Covers (tokens rest) (names ++ below) := by
  cases regular.properParts_eq with
  | inl here => exact .inl here.1
  | inr proper =>
      right
      obtain ⟨parts, own, same⟩ := proper
      have noUp : ['.', '.'] ∉ anchored.parts := fun member =>
        (parts _ member).2.2.1 rfl
      have named : Leads (anchored.parts.map .named) names below := by
        rw [Anchored.followed, same] at leads
        split at leads
        · exact leads.of_append_here
        · rwa [List.append_nil] at leads
      unfold Anchored.HasOuterDeep at outer
      cases split : anchored.parts with
      | nil => exact absurd split parts_ne_nil
      | cons part rest =>
          rw [split] at named noUp outer
          have noUpRest : ['.', '.'] ∉ rest := fun member =>
            noUp (List.mem_cons_of_mem _ member)
          by_cases some : rest = []
          · left
            rw [own, split]
            exact covers_of_leads (List.cons_ne_nil _ _) noUp (by simp [some])
              named
          · by_cases deep : part = ['*', '*']
            · rw [deep] at split named
              obtain ⟨body, others⟩ := tokens_of_parts_deep some split own
              cases covers_of_leads_deep some noUpRest outer named with
              | inl later => exact .inr ⟨_, body, others ▸ later⟩
              | inr whole => exact .inl (by rwa [own, split])
            · left
              rw [own, split]
              refine covers_of_leads (List.cons_ne_nil _ _) noUp ?_ named
              rw [List.dropLast_cons_of_ne_nil some]
              intro member
              cases member with
              | head => exact deep rfl
              | tail _ member => exact outer member

/-- The components of a regular pattern lead past names that it covers as one
text. -/
theorem exists_leads_of_covers (regular : anchored.IsRegular)
    (taken : anchored.TakesNoSlash) {names : List (List Char)}
    (noSlash : ∀ name ∈ names, '/' ∉ name)
    (covered : anchored.body = ['.'] ∨ Covers (tokens anchored.body) names ∨
      ∃ rest, anchored.body = '*' :: '*' :: '/' :: rest ∧
        Covers (tokens rest) names) :
    ∃ led below, names = led ++ below ∧ Leads anchored.followed led below := by
  have noSlashEnds : ¬ (hasWildcard anchored.pattern = true ∧
      anchored.pattern.getLast? = some '/') :=
    fun ends => (taken ends.1).1 ends.2
  rw [Anchored.followed, if_neg noSlashEnds, List.append_nil]
  cases regular.properParts_eq with
  | inl here =>
      rw [here.2]
      exact ⟨[], names, rfl, .done⟩
  | inr proper =>
      obtain ⟨parts, own, same⟩ := proper
      have noUp : ['.', '.'] ∉ anchored.parts := fun member =>
        (parts _ member).2.2.1 rfl
      have rigid : Rigid false (anchored.parts.map .named) := by
        cases wild : hasWildcard anchored.pattern with
        | true => exact (taken wild).2
        | false =>
            exact rigid_of_plain parts (same ▸ plain_of_mem_properParts wild)
      rw [same]
      obtain here | ⟨covered, below, split, some, matched⟩ |
        ⟨rest, body, covered, below, split, some, matched⟩ := covered
      · have proper := parts ['.'] (by
          rw [Anchored.parts, here]
          exact List.mem_singleton_self _)
        exact absurd rfl proper.2.1
      · rw [own] at matched
        obtain ⟨above, led, more, whole, none, leads⟩ :=
          exists_leads_of_accepts parts_ne_nil some noUp
            (fun name member =>
              noSlash name (split ▸ List.mem_append_left below member))
            rigid matched
        rw [none rfl, List.nil_append] at whole
        exact ⟨led, more ++ below, by rw [split, whole, List.append_assoc],
          leads.extend below⟩
      · have deep := parts_of_body_deep body
        have others : rest.splitOn '/' ≠ [] := List.splitOn_ne_nil '/' rest
        have read : tokens rest = joinedTokens (rest.splitOn '/') := by
          have joinedRest := (tokens_of_parts_deep others deep own).2
          rwa [joined, List.intercalate_splitOn] at joinedRest
        rw [read] at matched
        rw [deep] at rigid noUp ⊢
        rw [List.map_cons, named_deep] at rigid ⊢
        cases rigid with
        | deep rigid =>
            obtain ⟨above, led, more, whole, _, leads⟩ :=
              exists_leads_of_accepts others some
                (fun member => noUp (List.mem_cons_of_mem _ member))
                (fun name member =>
                  noSlash name (split ▸ List.mem_append_left below member))
                rigid matched
            have inside := leads.nonempty (by simp)
            refine ⟨above ++ led, more ++ below, ?_,
              (Leads.deep inside leads).extend below⟩
            rw [split, whole]
            simp

end Agreement

section Agreement

variable {store : Store} {directory file : Location} {pattern : String}

/-- A pattern excludes no file outside its directory. -/
theorem exists_names_of_excludes
    (root : (anchor directory pattern).directory.root = .single)
    (excluded : excludes directory pattern file = true) :
    ∃ names, (anchor directory pattern).base.names ++ names = file.names := by
  unfold excludes at excluded
  dsimp only at excluded
  split at excluded
  · cases excluded
  · next names relative =>
    have same : file.path.root = (anchor directory pattern).directory.root :=
      root.symm
    rw [Path.relativeTo?, if_pos same] at relative
    exact ⟨names, List.isPrefixOf?_eq_some_iff_append_eq.mp relative⟩

/-- The names from a directory to a file. -/
theorem names_below (tree : store.IsTree) (isFile : store.isFile file = true)
    {location : Location} (isDirectory : store.isDirectory location = true)
    {names : List String} (way : location.names ++ names = file.names) :
    names ≠ [] ∧ ∀ name ∈ names, '/' ∉ name.toList := by
  constructor
  · intro none
    rw [none, List.append_nil] at way
    have same : file = location := congrArg Location.mk way.symm
    rw [← same, Store.isDirectory_eq_false_of_isFile isFile] at isDirectory
    cases isDirectory
  · intro name member
    have part := tree.isPart (Store.contains_of_isFile isFile) name
      (way ▸ List.mem_append_right _ member)
    exact part.2.2.2

/-- A file that a pattern includes, or that is below a directory that the
pattern includes, is excluded by the same pattern if its `**` stand first or
last.  A file that a pattern excludes is included so if the wildcards of the
pattern take in no slash. -/
theorem isExcluded_iff_reaches {root : Location} {denoted : List Location}
    (tree : store.IsTree) (isDirectory : store.isDirectory directory = true)
    (isFile : store.isFile file = true)
    (searched : Project.liesInExcludedDirectory root file = false)
    (expanded : expand store directory pattern = .ok denoted)
    (regular : (anchor directory pattern).IsRegular) :
    ((anchor directory pattern).HasOuterDeep → Reaches store denoted file →
      Project.isExcluded root [⟨directory, pattern⟩] file = true) ∧
    ((anchor directory pattern).TakesNoSlash →
      Project.isExcluded root [⟨directory, pattern⟩] file = true →
      Reaches store denoted file) := by
  have excluded : Project.isExcluded root [⟨directory, pattern⟩] file =
      excludes directory pattern file := by
    simp [Project.isExcluded, searched]
  have base := @isDirectory_base _ _ pattern isDirectory
  rw [excluded, reaches_iff tree isDirectory isFile regular expanded]
  constructor
  · intro outer leadsTo
    obtain ⟨names, below, way, leads⟩ := leadsTo
    obtain ⟨some, noSlash⟩ := names_below tree isFile base way.symm
    rw [excludes_iff regular some noSlash way.symm, List.map_append]
    exact covers_of_followed regular outer leads
  · intro taken known
    obtain ⟨names, way⟩ := exists_names_of_excludes regular.root known
    obtain ⟨some, noSlash⟩ := names_below tree isFile base way
    rw [excludes_iff regular some noSlash way] at known
    obtain ⟨led, below, split, leads⟩ :=
      exists_leads_of_covers regular taken (by simpa using noSlash) known
    obtain ⟨passed, left, rfl, rfl, rfl⟩ := List.map_eq_append_iff.mp split
    exact ⟨passed, left, way.symm, leads⟩

end Agreement

/-- A file tree with one source in a directory. -/
def sourceTree : Store :=
  Store.empty.write ⟨["src", "a.ts"]⟩ (.ofTree [] default)

theorem tokens_sources : tokens ['*', '.', 't', 's'] =
    [.anyText] ++ ([.literal '.', .literal 't', .literal 's'] ++ []) := by
  simp [tokens]

theorem expand_allSources :
    expand sourceTree .root "**/*.ts" = .ok [⟨["src", "a.ts"]⟩] := by
  have read : components "**/*.ts".toList = .ok [.deep, .entry
      [.anyText, .literal '.', .literal 't', .literal 's']] := by
    have parts : ("**/*.ts".toList.splitOn '/').filter
        (fun part => part ≠ [] ∧ part ≠ ['.']) =
        ["**".toList, "*.ts".toList] := by decide
    unfold components
    rw [parts]
    simp [Component.ofText?, hasDoubleAsterisk, tokens]
  have selected : select sourceTree [.deep, .entry
      [.anyText, .literal '.', .literal 't', .literal 's']] .root =
      [⟨["src", "a.ts"]⟩] := by decide
  have lookedUp : lookUps sourceTree [.deep, .entry
      [.anyText, .literal '.', .literal 't', .literal 's']] .root = [] := by
    decide
  have followed : glob sourceTree Location.root.path "**/*.ts".toList =
      .ok [⟨["src", "a.ts"]⟩] := by
    have relative : "**/*.ts".toList.head? ≠ some '/' := by decide
    have base : Location.root.path.resolve = .root := rfl
    simp only [glob, if_neg relative, read, ok_bind, base, lookedUp, selected]
    rfl
  exact followed

theorem isExcluded_allSources :
    Project.isExcluded .root [⟨.root, "**/*.ts"⟩] ⟨["src", "a.ts"]⟩ = true ↔
      Reaches sourceTree [⟨["src", "a.ts"]⟩] ⟨["src", "a.ts"]⟩ := by
  have tree : sourceTree.IsTree := ⟨by decide, by decide⟩
  have isFile : sourceTree.isFile ⟨["src", "a.ts"]⟩ = true := by decide
  have parts : (anchor .root "**/*.ts").parts =
      [['*', '*'], ['*', '.', 't', 's']] := by decide
  have regular : (anchor .root "**/*.ts").IsRegular := by
    refine ⟨rfl, .inr ⟨by decide, ?_⟩⟩
    rw [← joined_parts]
    exact tokens_joined parts_ne_nil (by decide)
  have searched : Project.liesInExcludedDirectory .root
      ⟨["src", "a.ts"]⟩ = false := by decide
  have known := isExcluded_iff_reaches tree rfl isFile searched
    expand_allSources regular
  refine ⟨known.2 fun _ => ⟨by decide, ?_⟩, known.1 ?_⟩
  · rw [parts, List.map_cons, List.map_singleton, named_deep,
      named_of_ne (by decide) (by decide), tokens_sources]
    exact .deep (.entry (.inr ⟨rfl, rfl⟩) (.inl rfl) (by decide) .done)
  · rw [Anchored.HasOuterDeep, parts]
    decide

end ExportAudit.Pattern
