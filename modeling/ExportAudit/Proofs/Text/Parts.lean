import ExportAudit.Text.Width

/-!
# Parts of a text

The parts into which a text is cut at a separator hold characters of the text
only.  So a text without tabs is its own layout in columns.
-/

namespace ExportAudit.Text

section Parts

universe u v

variable {α : Type u} {β : Type v}

/-- A part of a text has its characters from the text. -/
theorem mem_of_mem_splitOn [DecidableEq α] {text part : List α}
    {separator character : α} (listed : part ∈ text.splitOn separator)
    (member : character ∈ part) : character ∈ text := by
  induction text generalizing part with
  | nil =>
      rw [List.splitOn_nil, List.mem_singleton] at listed
      rwa [listed] at member
  | cons head rest ih =>
      rw [List.splitOn_cons_eq_if_modifyHead] at listed
      split at listed
      · rcases List.mem_cons.mp listed with rfl | later
        · cases member
        · exact List.mem_cons_of_mem _ (ih later member)
      · cases parts : rest.splitOn separator with
        | nil => exact absurd parts (List.splitOn_ne_nil separator rest)
        | cons first others =>
            rw [parts, List.modifyHead_cons] at listed
            rcases List.mem_cons.mp listed with rfl | later
            · rcases List.mem_cons.mp member with rfl | inside
              · exact List.mem_cons_self ..
              · refine List.mem_cons_of_mem _ (ih ?_ inside)
                rw [parts]
                exact List.mem_cons_self ..
            · refine List.mem_cons_of_mem _ (ih ?_ member)
              rw [parts]
              exact List.mem_cons_of_mem _ later

/-- What joined parts hold is the separator or held by one of them. -/
theorem mem_intercalate {separator character : α} {parts : List (List α)}
    (member : character ∈ [separator].intercalate parts) :
    character = separator ∨ ∃ part ∈ parts, character ∈ part := by
  induction parts with
  | nil => cases member
  | cons first rest ih =>
      cases rest with
      | nil =>
          rw [List.intercalate_singleton] at member
          exact .inr ⟨first, List.mem_singleton_self first, member⟩
      | cons second rest =>
          rw [List.intercalate_cons_cons, List.append_assoc, List.mem_append,
            List.singleton_append, List.mem_cons] at member
          rcases member with own | same | later
          · exact .inr ⟨first, List.mem_cons_self, own⟩
          · exact .inl same
          · exact (ih later).imp_right fun ⟨part, listed, inside⟩ =>
              ⟨part, List.mem_cons_of_mem _ listed, inside⟩

/-- Texts that are renamed character by character are cut at the same places. -/
theorem splitOn_map [DecidableEq α] [DecidableEq β] {rename : α → β}
    (different : ∀ left right, rename left = rename right → left = right)
    (separator : α) (text : List α) :
    (text.map rename).splitOn (rename separator) =
      (text.splitOn separator).map (List.map rename) := by
  induction text with
  | nil => rfl
  | cons head rest ih =>
      rw [List.map_cons, List.splitOn_cons_eq_if_modifyHead,
        List.splitOn_cons_eq_if_modifyHead, ih]
      by_cases same : head = separator
      · simp [same]
      · have renamed : rename head ≠ rename separator :=
          fun equal => same (different _ _ equal)
        simp only [beq_iff_eq, same, renamed, if_false]
        cases rest.splitOn separator <;> rfl

end Parts

/-! ## Tabs -/

theorem mem_joinByTabs {column : Nat} {parts : List (List Char)} {character : Char}
    (member : character ∈ joinByTabs column parts) :
    character = ' ' ∨ ∃ part ∈ parts, character ∈ part := by
  fun_induction joinByTabs column parts with
  | case1 => cases member
  | case2 column part => exact .inr ⟨part, List.mem_singleton_self part, member⟩
  | case3 column part rest _ padded reached gap ih =>
      simp only [padded, List.mem_append, List.mem_singleton, List.mem_replicate]
        at member
      rcases member with ((own | space) | ⟨-, space⟩) | later
      · exact .inr ⟨part, List.mem_cons_self, own⟩
      · exact .inl space
      · exact .inl space
      · exact (ih later).imp_right fun ⟨other, listed, inside⟩ =>
          ⟨other, List.mem_cons_of_mem _ listed, inside⟩

theorem mem_expandTabsInLine {line : List Char} {character : Char}
    (member : character ∈ expandTabsInLine line) :
    character = ' ' ∨ character ∈ line :=
  (mem_joinByTabs member).imp_right fun ⟨_, listed, inside⟩ =>
    mem_of_mem_splitOn listed inside

/-- Laying out tabs adds nothing but spaces. -/
theorem mem_expandTabs {text : List Char} {character : Char}
    (member : character ∈ expandTabs text) :
    character = ' ' ∨ character = '\n' ∨ character ∈ text := by
  rcases mem_intercalate member with lineBreak | ⟨part, listed, inside⟩
  · exact .inr (.inl lineBreak)
  · obtain ⟨line, cut, rfl⟩ := List.mem_map.mp listed
    exact (mem_expandTabsInLine inside).imp_right fun inLine =>
      .inr (mem_of_mem_splitOn cut inLine)

theorem expandTabsInLine_eq_self {line : List Char} (noTab : '\t' ∉ line) :
    expandTabsInLine line = line := by
  rw [expandTabsInLine, List.splitOn_eq_singleton noTab, joinByTabs]

theorem expandTabs_eq_self {text : List Char} (noTab : '\t' ∉ text) :
    expandTabs text = text := by
  have lines : (text.splitOn '\n').map expandTabsInLine = text.splitOn '\n' := by
    refine (List.map_congr_left fun line listed => ?_).trans (List.map_id _)
    exact expandTabsInLine_eq_self fun tab => noTab (mem_of_mem_splitOn listed tab)
  rw [expandTabs, lines, List.intercalate_splitOn]

end ExportAudit.Text
