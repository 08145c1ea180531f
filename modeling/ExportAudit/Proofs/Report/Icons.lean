import Mathlib.Data.List.Infix
import ExportAudit.Proofs.Report.Listing

/-!
# Icons in markup

A terminal that does not show Unicode gets replacements for icons, put into the
markup before it is printed.  Some replacements hold brackets.  A tag that holds
such an icon is no tag any more once the icon is replaced, and its backslashes
are read as part of the text.  Otherwise a text with its icons replaced falls
into the pieces of the text with their icons replaced.
-/

namespace ExportAudit.Markup

/-! ## Replacements -/

/-- What is printed in place of a character that may be an icon. -/
def replacement (character : Char) : List Char := replaceIcons [character]

/-- The replacement of a character opens a bracket. -/
def addsBracket (character : Char) : Bool :=
  character ≠ '[' && '[' ∈ replacement character

theorem replaceIcons_cons (character : Char) (rest : List Char) :
    replaceIcons (character :: rest) =
      replacement character ++ replaceIcons rest := by
  simp [replacement, replaceIcons]

@[simp] theorem replaceIcons_nil : replaceIcons [] = [] := rfl

@[simp] theorem replaceIcons_append (left right : List Char) :
    replaceIcons (left ++ right) = replaceIcons left ++ replaceIcons right :=
  List.flatMap_append

/-- Texts with which no tag starts, whatever follows them. -/
def isInert : List Char → Bool
  | [] => false
  | first :: rest =>
      first ≠ '\\' && (first ≠ '[' || rest.head?.any fun next => !opensTag next)

theorem leads_of_isInert {text : List Char} (inert : isInert text = true)
    (rest : List Char) : leads (text ++ rest) = false := by
  cases text with
  | nil => cases inert
  | cons first others =>
      simp only [isInert, Bool.and_eq_true, decide_eq_true_eq, Bool.or_eq_true]
        at inert
      obtain ⟨notBackslash, bracket⟩ := inert
      by_cases notBracket : first = '['
      · subst notBracket
        cases others with
        | nil => simp at bracket
        | cons next others =>
            have closed : opensTag next = false := by simpa using bracket
            rw [List.cons_append, leads_bracket, List.cons_append, opens, closed,
              Bool.false_and]
      · rw [List.cons_append, leads_other _ notBackslash notBracket]

/-- A character that means nothing in markup and has a replacement.  No tag
starts inside the replacement, whatever follows it, and if it has brackets it
starts with one. -/
structure IsIcon (icon : Char) : Prop where
  meaningless : icon ∉ ['\\', '[', ']', '\t', '\n', ' ']
  inside : opensTag icon = false
  kept : Console.omits icon = false
  inert : ∀ suffix ∈ (replacement icon).tails,
    suffix = [] ∨ isInert suffix = true
  shows : ((replacement icon).all fun character => character ≠ '\\' &&
    character ≠ '\t' && !Console.omits character) = true
  starts : ((replacement icon).head?.any fun first => !opensTag first &&
    (first = '[' || (replacement icon).all fun character =>
      character ≠ '[' && character ≠ ']')) = true

theorem isIcon_of_mem : ∀ entry ∈ iconReplacements, IsIcon entry.1 := by
  intro entry member
  constructor <;> (revert entry; decide)

theorem IsIcon.shown {icon : Char} (isIcon : IsIcon icon) :
    ∀ character ∈ replacement icon, character ≠ '\\' ∧ character ≠ '\t' ∧
      Console.omits character = false := by
  simpa [and_assoc] using isIcon.shows

theorem IsIcon.begins {icon : Char} (isIcon : IsIcon icon) :
    ∃ first ∈ (replacement icon).head?, opensTag first = false ∧
      ((∃ character ∈ replacement icon, character = '[' ∨ character = ']') →
        first = '[') := by
  have starts := isIcon.starts
  rw [Option.any_eq_true] at starts
  obtain ⟨first, head, starts⟩ := starts
  rw [Bool.and_eq_true, Bool.not_eq_true'] at starts
  refine ⟨first, head, starts.1, ?_⟩
  rintro ⟨character, member, bracket⟩
  rcases Bool.or_eq_true _ _ ▸ starts.2 with opening | bracketless
  · exact of_decide_eq_true opening
  · have plain := List.all_eq_true.mp bracketless character member
    rcases bracket with rfl | rfl <;> cases plain

/-- A character is its own replacement or an icon. -/
theorem replacement_cases (character : Char) :
    replacement character = [character] ∨ IsIcon character := by
  cases found : iconReplacements.lookup character with
  | none =>
      left
      simp [replacement, replaceIcons, found]
  | some text =>
      obtain ⟨before, after, table, -⟩ := List.lookup_eq_some_iff.mp found
      exact .inr (isIcon_of_mem (character, text) (by simp [table]))

theorem replacement_of_opensTag {character : Char}
    (opening : opensTag character = true) : replacement character = [character] := by
  rcases replacement_cases character with own | icon
  · exact own
  · cases icon.inside.symm.trans opening

theorem replaceIcons_backslashes (count : Nat) :
    replaceIcons (List.replicate count '\\') = List.replicate count '\\' := by
  rw [replaceIcons]
  exact flatMap_replicate_eq_replicate (by rfl) count

theorem addsBracket_of_own {character : Char}
    (own : replacement character = [character]) :
    addsBracket character = false := by
  simp [addsBracket, own, eq_comm]

theorem bracketless_replacement {character : Char}
    (bracketless : character ≠ '[' ∧ character ≠ ']')
    (adds : addsBracket character = false) :
    ∀ other ∈ replacement character, other ≠ '[' ∧ other ≠ ']' := by
  rcases replacement_cases character with own | icon
  · simpa [own] using bracketless
  · obtain ⟨first, head, -, bracket⟩ := icon.begins
    have unopened : '[' ∉ replacement character := by
      simpa [addsBracket, bracketless] using adds
    intro other member
    refine ⟨fun same => unopened (same ▸ member), fun same => unopened ?_⟩
    have opening := bracket ⟨other, member, .inr same⟩
    exact opening ▸ List.mem_of_head? head

theorem closes_replacement (character : Char) (rest : List Char) :
    closes (replacement character ++ rest) =
      (character = ']' ||
        (character ≠ '[' && !addsBracket character && closes rest)) := by
  rcases replacement_cases character with own | icon
  · simp [own, closes_cons, addsBracket_of_own own]
  · have bracketless : character ≠ '[' ∧ character ≠ ']' := by
      constructor <;> rintro rfl <;> exact icon.meaningless (by decide)
    cases adds : addsBracket character with
    | true =>
        obtain ⟨first, head, -, bracket⟩ := icon.begins
        obtain ⟨others, text⟩ := List.head?_eq_some_iff.mp head
        have opening : '[' ∈ replacement character := by
          simpa [addsBracket, bracketless] using adds
        rw [text, bracket ⟨_, opening, .inl rfl⟩]
        simp [bracketless]
    | false =>
        rw [closes_append_of_bracketless (bracketless_replacement bracketless adds)]
        simp [bracketless]

theorem IsIcon.opens {icon : Char} (isIcon : IsIcon icon) (rest : List Char) :
    opens (replacement icon ++ rest) = false := by
  obtain ⟨first, head, closed, -⟩ := isIcon.begins
  obtain ⟨others, text⟩ := List.head?_eq_some_iff.mp head
  rw [text, List.cons_append, Markup.opens, closed, Bool.false_and]

theorem IsIcon.leads {icon : Char} (isIcon : IsIcon icon) (rest : List Char) :
    leads (replacement icon ++ rest) = false := by
  obtain ⟨first, head, -⟩ := isIcon.begins
  have inert := isIcon.inert _ ((List.mem_tails _ _).mpr List.suffix_rfl)
  rcases inert with empty | inert
  · rw [empty] at head
    cases head
  · exact leads_of_isInert inert rest

/-! ## Tags in texts with replacements -/

section

variable {text rest : List Char}

/-- Replacing icons closes no bracket and makes no tag. -/
theorem closes_of_closes_replaceIcons
    (closed : closes (replaceIcons text) = true) : closes text = true := by
  induction text with
  | nil => cases closed
  | cons first rest ih =>
      rw [replaceIcons_cons, closes_replacement] at closed
      rw [closes_cons]
      simp only [Bool.or_eq_true, Bool.and_eq_true] at closed ⊢
      exact closed.imp_right fun ⟨⟨unopened, _⟩, after⟩ => ⟨unopened, ih after⟩

theorem opens_of_opens_replaceIcons
    (opening : opens (replaceIcons text) = true) : opens text = true := by
  cases text with
  | nil => cases opening
  | cons character rest =>
      rw [replaceIcons_cons] at opening
      rcases replacement_cases character with own | icon
      · rw [own, List.singleton_append, opens, Bool.and_eq_true] at opening
        rw [opens, opening.1, Bool.true_and]
        exact closes_of_closes_replaceIcons opening.2
      · cases (icon.opens _).symm.trans opening

theorem leads_of_leads_replaceIcons
    (leading : leads (replaceIcons text) = true) : leads text = true := by
  induction text with
  | nil => cases leading
  | cons character rest ih =>
      rw [replaceIcons_cons] at leading
      rcases replacement_cases character with own | icon
      · rw [own, List.singleton_append, leads_cons] at leading
        rw [leads_cons]
        simp only [Bool.or_eq_true, Bool.and_eq_true] at leading ⊢
        exact leading.imp (.imp_right ih) (.imp_right opens_of_opens_replaceIcons)
      · cases (icon.leads _).symm.trans leading

/-- A tag without icons that add brackets is a tag with its icons replaced. -/
theorem IsTag.replaced {tag : List Char} (isTag : IsTag tag)
    (adds : ∀ character ∈ tag, addsBracket character = false) :
    IsTag (replaceIcons tag) := by
  obtain ⟨first, inner, rfl, opening, bracketless⟩ := isTag.exists_inner
  have own := replacement_of_opensTag opening
  have whole : replaceIcons ('[' :: first :: (inner ++ [']'])) =
      '[' :: first :: (replaceIcons inner ++ [']']) := by
    rw [replaceIcons_cons, replaceIcons_cons, own, replaceIcons_append]
    rfl
  rw [whole]
  refine tagLength?_eq_some.mpr ⟨first, _, [], rfl, by simp, opening, ?_⟩
  intro other member
  obtain ⟨character, inside, member⟩ := List.mem_flatMap.mp member
  refine bracketless_replacement (bracketless character inside) (adds _ ?_) other
    (by simpa [replacement, replaceIcons] using member)
  simp [inside]

theorem closes_eq_false_of_addsBracket {inner : List Char}
    (unclosed : ∀ character ∈ inner, character ≠ ']')
    (adds : ∃ character ∈ inner, addsBracket character = true) :
    closes (replaceIcons inner ++ rest) = false := by
  induction inner with
  | nil => simp at adds
  | cons first inner ih =>
      rw [List.forall_mem_cons] at unclosed
      rw [replaceIcons_cons, List.append_assoc, closes_replacement]
      by_cases addsFirst : addsBracket first = true
      · simp [addsFirst, unclosed.1]
      · have later : ∃ character ∈ inner, addsBracket character = true := by
          simpa [addsFirst] using adds
        simp [ih unclosed.2 later, unclosed.1]

end

/-! ## Pieces of texts with replacements -/

/-- A piece once icons are replaced: if the replacements add a bracket, a tag
falls into characters. -/
def Piece.replaced : Piece → List Piece
  | .plain character => (replacement character).map .plain
  | .tag backslashes body =>
      if body.any addsBracket then
        (List.replicate backslashes '\\' ++ replaceIcons body).map .plain
      else [.tag backslashes (replaceIcons body)]

section

variable {text rest : List Char} {pieces : List Piece}

theorem FallsInto.inert_append {added : List Char} (falls : FallsInto rest pieces)
    (inert : ∀ suffix ∈ added.tails, suffix = [] ∨ isInert suffix = true) :
    FallsInto (added ++ rest) (added.map .plain ++ pieces) := by
  induction added with
  | nil => exact falls
  | cons first added ih =>
      rw [List.tails_cons, List.forall_mem_cons] at inert
      have noTag := leads_of_isInert (inert.1.resolve_left (List.cons_ne_nil _ _))
        rest
      exact .plain noTag (ih inert.2)

theorem FallsInto.replacement_append {character : Char}
    (falls : FallsInto rest pieces)
    (noTag : leads (replacement character ++ rest) = false) :
    FallsInto (replacement character ++ rest)
      ((replacement character).map .plain ++ pieces) := by
  rcases replacement_cases character with own | icon
  · rw [own] at noTag ⊢
    exact .plain noTag falls
  · exact falls.inert_append icon.inert

theorem FallsInto.backslashes_append (falls : FallsInto rest pieces)
    (noTag : leads rest = false) (count : Nat) :
    FallsInto (List.replicate count '\\' ++ rest)
      ((List.replicate count '\\').map .plain ++ pieces) := by
  induction count with
  | zero => exact falls
  | succ count ih =>
      exact .plain ((leads_backslashes (count + 1) rest).trans noTag) ih

/-- In the rest of a tag no other tag starts once icons are replaced. -/
theorem leads_replaceIcons_tail {tail : List Char} (nonempty : tail ≠ [])
    (unopened : ∀ character ∈ tail, character ≠ '[')
    (ends : tail.getLast? ≠ some '\\') :
    leads (replaceIcons tail ++ rest) = false := by
  induction tail with
  | nil => exact absurd rfl nonempty
  | cons first tail ih =>
      rw [List.forall_mem_cons] at unopened
      rw [replaceIcons_cons, List.append_assoc]
      rcases replacement_cases first with own | icon
      · rw [own, List.singleton_append]
        by_cases backslash : first = '\\'
        · subst backslash
          cases tail with
          | nil => exact absurd rfl ends
          | cons second tail =>
              rw [List.getLast?_cons_cons] at ends
              rw [leads_backslash, ih (List.cons_ne_nil _ _) unopened.2 ends]
        · exact leads_other _ backslash unopened.1
      · exact icon.leads _

theorem FallsInto.tail_append {tail : List Char} (falls : FallsInto rest pieces)
    (unopened : ∀ character ∈ tail, character ≠ '[')
    (ends : tail.getLast? ≠ some '\\') :
    FallsInto (replaceIcons tail ++ rest)
      ((replaceIcons tail).map .plain ++ pieces) := by
  induction tail with
  | nil => exact falls
  | cons first tail ih =>
      have noTag := @leads_replaceIcons_tail rest _ (List.cons_ne_nil first tail)
        unopened ends
      rw [List.forall_mem_cons] at unopened
      rw [replaceIcons_cons, List.append_assoc] at noTag
      rw [replaceIcons_cons, List.append_assoc, List.map_append, List.append_assoc]
      have after := ih unopened.2 (getLast?_of_suffix (List.suffix_cons _ _) ends)
      exact after.replacement_append noTag

theorem opens_replaceIcons_broken {first : Char} {inner : List Char}
    (opening : opensTag first = true)
    (bracketless : ∀ character ∈ inner, character ≠ '[' ∧ character ≠ ']')
    (adds : ∃ character ∈ '[' :: first :: (inner ++ [']']),
      addsBracket character = true) :
    opens (replaceIcons (first :: (inner ++ [']'])) ++ rest) = false := by
  have own : replacement first = [first] := replacement_of_opensTag opening
  have addsInner : ∃ character ∈ inner, addsBracket character = true := by
    obtain ⟨character, member, adds⟩ := adds
    refine ⟨character, ?_, adds⟩
    simp only [List.mem_cons, List.mem_append, List.not_mem_nil, or_false] at member
    rcases member with rfl | rfl | inside | rfl
    · cases adds
    · cases (addsBracket_of_own own).symm.trans adds
    · exact inside
    · cases adds
  have unclosed := @closes_eq_false_of_addsBracket (replaceIcons [']'] ++ rest) _
    (fun character inside => (bracketless character inside).2) addsInner
  rw [replaceIcons_cons, own, replaceIcons_append, List.append_assoc,
    List.append_assoc, List.singleton_append, opens, unclosed, Bool.and_false]

/-- A tag with an icon that adds a bracket falls into characters. -/
theorem FallsInto.broken_append {tag : List Char} (falls : FallsInto rest pieces)
    (isTag : IsTag tag) (adds : ∃ character ∈ tag, addsBracket character = true)
    (count : Nat) :
    FallsInto (List.replicate count '\\' ++ replaceIcons tag ++ rest)
      ((List.replicate count '\\' ++ replaceIcons tag).map .plain ++ pieces) := by
  obtain ⟨tail, same, unopened, ends⟩ := isTag.exists_tail
  obtain ⟨first, inner, rfl, opening, bracketless⟩ := isTag.exists_inner
  cases same
  have noTag := @opens_replaceIcons_broken rest first inner opening bracketless adds
  have inside := falls.tail_append unopened (by rw [ends]; decide)
  rw [← leads_bracket] at noTag
  have whole := (FallsInto.plain noTag inside).backslashes_append noTag count
  rwa [List.map_append, List.append_assoc, List.append_assoc]

/-- A text with its icons replaced falls into the pieces of the text with their
icons replaced. -/
theorem FallsInto.replaced (falls : FallsInto text pieces) :
    FallsInto (replaceIcons text) (pieces.flatMap Piece.replaced) := by
  induction falls with
  | nil => exact .nil
  | @plain character rest pieces noTag after ih =>
      rw [replaceIcons_cons]
      refine ih.replacement_append ?_
      rw [← replaceIcons_cons, ← Bool.not_eq_true]
      intro leading
      cases noTag.symm.trans (leads_of_leads_replaceIcons leading)
  | @tag body rest pieces backslashes isTag after ih =>
      rw [replaceIcons_append, replaceIcons_append, replaceIcons_backslashes,
        List.flatMap_cons, Piece.replaced]
      split
      · next adds =>
        exact ih.broken_append isTag (List.any_eq_true.mp adds) backslashes
      · next adds =>
        have adds : ∀ character ∈ body, addsBracket character = false := by
          simpa using adds
        exact .tag backslashes (isTag.replaced adds) ih

end

/-! ## Icons behind backslashes -/

/-- In a text no icon that adds a bracket stands directly behind a backslash or
in a tag behind one. -/
structure KeepsIcons (text : List Char) : Prop where
  apart : ∀ icon rest, '\\' :: icon :: rest <:+ text → addsBracket icon = false
  tags : ∀ tag rest, '\\' :: (tag ++ rest) <:+ text → IsTag tag →
    ∀ icon ∈ tag, addsBracket icon = false

theorem KeepsIcons.of_suffix {text rest : List Char} (keeps : KeepsIcons text)
    (suffix : rest <:+ text) : KeepsIcons rest where
  apart icon others inside := keeps.apart icon others (inside.trans suffix)
  tags tag others inside := keeps.tags tag others (inside.trans suffix)

theorem KeepsIcons.of_append {text rest : List Char}
    (keeps : KeepsIcons (text ++ rest)) : KeepsIcons text where
  apart icon others inside := by
    obtain ⟨before, rfl⟩ := inside
    exact keeps.apart icon (others ++ rest) ⟨before, by simp⟩
  tags tag others inside := by
    obtain ⟨before, rfl⟩ := inside
    exact keeps.tags tag (others ++ rest) ⟨before, by simp⟩

theorem keepsIcons_nil : KeepsIcons [] where
  apart _ _ inside := by cases List.suffix_nil.mp inside
  tags _ _ inside := by cases List.suffix_nil.mp inside

/-- What follows a backslash starts neither with an icon that adds a bracket nor
with a tag that holds one. -/
def followsBackslash (rest : List Char) : Bool :=
  (rest.head?.all fun icon => !addsBracket icon) &&
    (tagLength? rest).all fun length => !(rest.take length).any addsBracket

theorem followsBackslash_iff {rest : List Char} :
    followsBackslash rest = true ↔
      (∀ icon ∈ rest.head?, addsBracket icon = false) ∧
        ∀ length ∈ tagLength? rest, ∀ icon ∈ rest.take length,
          addsBracket icon = false := by
  simp [followsBackslash, Option.all_eq_true]

theorem keepsIcons_cons {character : Char} {rest : List Char} :
    KeepsIcons (character :: rest) ↔
      (character = '\\' → followsBackslash rest = true) ∧ KeepsIcons rest := by
  rw [followsBackslash_iff]
  constructor
  · refine fun keeps => ⟨?_, keeps.of_suffix (List.suffix_cons _ _)⟩
    rintro rfl
    constructor
    · intro icon head
      obtain ⟨others, rfl⟩ := List.head?_eq_some_iff.mp head
      exact keeps.apart icon others List.suffix_rfl
    · intro length found
      refine keeps.tags (rest.take length) (rest.drop length) ?_ (isTag_take found)
      rw [List.take_append_drop]
  · rintro ⟨behind, keeps⟩
    constructor
    · intro icon others inside
      rcases List.suffix_cons_iff.mp inside with same | inside
      · cases same
        exact (behind rfl).1 icon rfl
      · exact keeps.apart icon others inside
    · intro tag others inside isTag
      rcases List.suffix_cons_iff.mp inside with same | inside
      · cases same
        have found := (behind rfl).2 _ (isTag.tagLength?_append others)
        rwa [List.take_left] at found
      · exact keeps.tags tag others inside isTag

instance decidableKeepsIcons : (text : List Char) → Decidable (KeepsIcons text)
  | [] => .isTrue keepsIcons_nil
  | _ :: rest =>
      have := decidableKeepsIcons rest
      decidable_of_iff _ keepsIcons_cons.symm

/-! ## Printing texts with replacements -/

section

variable {text rest : List Char} {pieces others : List Piece}

theorem printPieces_plains {added : List Char} (unescaped : '\\' ∉ added) :
    printPieces (added.map .plain ++ pieces) = added ++ printPieces pieces := by
  induction added with
  | nil => rfl
  | cons first added ih =>
      rw [List.mem_cons, not_or] at unescaped
      rw [List.map_cons, List.cons_append, printPieces_plain,
        if_neg fun loose => unescaped.1 loose.1.symm, ih unescaped.2,
        List.cons_append]

theorem IsIcon.unescaped {icon : Char} (isIcon : IsIcon icon) :
    '\\' ∉ replacement icon := fun member => (isIcon.shown _ member).1 rfl

theorem head?_replacement (character : Char) (rest : List Char) :
    (replacement character ++ rest).head? = some '[' ↔
      character = '[' ∨ addsBracket character = true := by
  rcases replacement_cases character with own | icon
  · simp [own, addsBracket_of_own own]
  · obtain ⟨first, head, -, bracket⟩ := icon.begins
    have notBracket : character ≠ '[' := by
      rintro rfl
      exact icon.meaningless (by decide)
    rw [List.head?_append, head, Option.some_or, Option.some_inj]
    simp only [notBracket, false_or, addsBracket, Bool.and_eq_true,
      decide_eq_true_eq, ne_eq, not_false_eq_true, true_and]
    exact ⟨fun same => same ▸ List.mem_of_head? head,
      fun member => bracket ⟨_, member, .inl rfl⟩⟩

theorem replacement_ne_nil (character : Char) : replacement character ≠ [] := by
  rcases replacement_cases character with own | icon
  · simp [own]
  · obtain ⟨first, head, -⟩ := icon.begins
    rintro empty
    rw [empty] at head
    cases head

theorem head?_map_plain {added : List Char} (nonempty : added ≠ []) :
    (added.map Piece.plain ++ pieces).head? = some (.plain '[') ↔
      added.head? = some '[' := by
  cases added with
  | nil => exact absurd rfl nonempty
  | cons first added => simp

/-- Where the replacement of a character starts with a bracket. -/
theorem head?_replacement_plain (character : Char) :
    ((replacement character).map Piece.plain ++ pieces).head? =
        some (.plain '[') ↔
      character = '[' ∨ addsBracket character = true := by
  rw [head?_map_plain (replacement_ne_nil _),
    ← List.append_nil (replacement character), head?_replacement]

theorem printPieces_tail {tail : List Char}
    (unopened : ∀ character ∈ tail, character ≠ '[')
    (apart : ∀ icon rest, '\\' :: icon :: rest <:+ tail → addsBracket icon = false)
    (ends : tail.getLast? ≠ some '\\') :
    printPieces ((replaceIcons tail).map .plain ++ pieces) =
      replaceIcons tail ++ printPieces pieces := by
  induction tail with
  | nil => rfl
  | cons first tail ih =>
      rw [List.forall_mem_cons] at unopened
      have after := ih unopened.2 (fun icon rest inside =>
        apart icon rest (inside.trans (List.suffix_cons _ _)))
        (getLast?_of_suffix (List.suffix_cons _ _) ends)
      rw [replaceIcons_cons, List.map_append, List.append_assoc]
      rcases replacement_cases first with own | icon
      · rw [own, List.map_singleton, List.singleton_append, printPieces_plain,
          if_neg, after]
        · rfl
        · rintro ⟨rfl, bracket⟩
          cases tail with
          | nil => exact ends rfl
          | cons second tail =>
              rw [replaceIcons_cons, List.map_append, List.append_assoc,
                head?_replacement_plain] at bracket
              rcases bracket with opened | adds
              · exact unopened.2 second List.mem_cons_self opened
              · cases (apart second tail List.suffix_rfl).symm.trans adds
      · rw [printPieces_plains icon.unescaped, after, List.append_assoc]

theorem replaceIcons_printed (backslashes : Nat) (body : List Char) :
    replaceIcons (Piece.tag backslashes body).printed =
      (Piece.tag backslashes (replaceIcons body)).printed := by
  rw [Piece.printed, Piece.printed, replaceIcons_append, replaceIcons_backslashes]
  split <;> rfl

/-- Behind a backslash that stays, replacing icons puts no bracket. -/
theorem FallsInto.head?_replaced (falls : FallsInto rest pieces)
    (noTag : leads rest = false) (keeps : KeepsIcons ('\\' :: rest))
    (apart : others.head? ≠ some (.plain '[') ∧
      (others.flatMap Piece.replaced).head? ≠ some (.plain '[')) :
    ((pieces.map Piece.afterEscape ++ others).flatMap Piece.replaced).head? =
        some (.plain '[') ↔
      (pieces.map Piece.afterEscape ++ others).head? = some (.plain '[') := by
  cases falls with
  | nil => exact iff_of_false apart.2 apart.1
  | @plain second rest pieces _ after =>
      have adds := keeps.apart second rest List.suffix_rfl
      rw [List.map_cons, List.cons_append, List.flatMap_cons, Piece.afterEscape,
        Piece.replaced, head?_replacement_plain, adds]
      simp
  | tag backslashes isTag after => cases noTag.symm.trans (isTag.leads _ _)

/-- An escaped tag that falls apart shows its replacements and nothing else, if
no further backslash is in front of it. -/
theorem IsTag.printPieces_broken {tag : List Char} {backslashes : Nat}
    (isTag : IsTag tag) (adds : ∃ icon ∈ tag, addsBracket icon = true)
    (keeps : KeepsIcons (List.replicate backslashes '\\' ++ tag ++ rest)) :
    printPieces ((List.replicate (2 * backslashes + 1) '\\' ++
        replaceIcons tag).map .plain ++ others) =
      replaceIcons (Piece.tag (2 * backslashes + 1) tag).printed ++
        printPieces others := by
  cases backslashes with
  | zero =>
      obtain ⟨tail, rfl, unopened, ends⟩ := isTag.exists_tail
      have keepsTail := keeps.of_append.of_suffix (List.suffix_cons '[' tail)
      have inside := @printPieces_tail others _ unopened keepsTail.apart (by
        rw [ends]
        decide)
      exact congrArg ('[' :: ·) inside
  | succ backslashes =>
      obtain ⟨icon, member, adds⟩ := adds
      have kept := keeps.tags tag rest
        ⟨List.replicate backslashes '\\', by simp [List.replicate_succ']⟩ isTag icon
        member
      cases kept.symm.trans adds

/-- Printing an escaped text with its icons replaced shows the text that is
printed with its icons replaced, whatever pieces follow.  Induction on how the
text falls into pieces: a backslash stays loose or not because no icon behind it
adds a bracket, and a tag that falls apart has no backslash but the one that
escapes it. -/
theorem FallsInto.printPieces_replaced (falls : FallsInto text pieces)
    (keeps : KeepsIcons text)
    (after : printPieces (others.flatMap Piece.replaced) =
      replaceIcons (printPieces others))
    (apart : others.head? ≠ some (.plain '[') ∧
      (others.flatMap Piece.replaced).head? ≠ some (.plain '[')) :
    printPieces ((pieces.map Piece.afterEscape ++ others).flatMap
        Piece.replaced) =
      replaceIcons (printPieces (pieces.map Piece.afterEscape ++ others)) := by
  induction falls with
  | nil => exact after
  | @plain character rest pieces noTag falls ih =>
      have same := ih (keeps.of_suffix (List.suffix_cons _ _))
      rw [List.map_cons, List.cons_append, List.flatMap_cons, Piece.afterEscape,
        Piece.replaced]
      rcases replacement_cases character with own | icon
      · have heads : character = '\\' →
            (((pieces.map Piece.afterEscape ++ others).flatMap
              Piece.replaced).head? = some (.plain '[') ↔
            (pieces.map Piece.afterEscape ++ others).head? =
              some (.plain '[')) := by
          rintro rfl
          rw [leads_backslash] at noTag
          exact falls.head?_replaced noTag keeps apart
        rw [own, List.map_singleton, List.singleton_append, printPieces_plain,
          printPieces_plain, same]
        simp only [and_congr_right heads]
        split
        · rfl
        · rw [replaceIcons_cons, own]
          rfl
      · have notBackslash : character ≠ '\\' := by
          rintro rfl
          exact icon.meaningless (by decide)
        rw [printPieces_plains icon.unescaped, same, printPieces_plain,
          if_neg fun loose => notBackslash loose.1, replaceIcons_cons]
  | @tag body rest pieces backslashes isTag falls ih =>
      have same := ih (keeps.of_suffix (List.suffix_append _ _))
      rw [List.map_cons, List.cons_append, List.flatMap_cons, Piece.afterEscape,
        Piece.replaced]
      split
      · next adds =>
        rw [isTag.printPieces_broken (List.any_eq_true.mp adds) keeps, same,
          printPieces_tag, replaceIcons_append]
      · rw [List.singleton_append, printPieces_tag, printPieces_tag, same,
          replaceIcons_append, replaceIcons_printed]

end

end ExportAudit.Markup
