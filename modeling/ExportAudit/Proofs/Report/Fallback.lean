import ExportAudit.Proofs.Report.Icons

/-!
# Reports on a terminal without Unicode

A terminal that does not show Unicode gets the lines that one which does gets,
with replacements for the icons, as long as no icon that is replaced by a
bracketed word stands behind a backslash.  Tabs are laid out after the icons are
replaced.
-/

namespace ExportAudit.Markup

/-! ## Lines with replacements -/

theorem exists_trailing_backslashes (text : List Char) :
    ∃ body count, text = body ++ List.replicate count '\\' ∧
      body.getLast? ≠ some '\\' := by
  induction text using List.reverseRecOn with
  | nil => exact ⟨[], 0, rfl, by simp⟩
  | append_singleton rest last ih =>
      by_cases backslash : last = '\\'
      · obtain ⟨body, count, rfl, ends⟩ := ih
        refine ⟨body, count + 1, ?_, ends⟩
        rw [backslash, List.append_assoc, List.replicate_succ']
      · exact ⟨rest ++ [last], 0, by simp, by simpa using backslash⟩

theorem head?_backslashes (count : Nat) :
    (List.replicate count (Piece.plain '\\')).head? ≠ some (.plain '[') := by
  intro head
  cases List.eq_of_mem_replicate (List.mem_of_head? head)

theorem printPieces_backslashes (count : Nat) :
    printPieces (List.replicate count (.plain '\\')) =
      List.replicate count '\\' := by
  induction count with
  | zero => rfl
  | succ count ih =>
      rw [List.replicate_succ, printPieces_plain,
        if_neg fun loose => head?_backslashes count loose.2, ih]
      rfl

theorem replaced_tag {body : List Char} (backslashes : Nat)
    (adds : body.any addsBracket = false) :
    (Piece.tag backslashes body).replaced =
      [.tag backslashes (replaceIcons body)] := by
  rw [Piece.replaced, adds]
  rfl

/-- An escaped text with its icons replaced shows the text with its icons
replaced. -/
theorem KeepsIcons.print_escape {text : List Char} (keeps : KeepsIcons text) :
    print (replaceIcons (escape text)) = replaceIcons (print (escape text)) := by
  obtain ⟨body, count, rfl, ends⟩ := exists_trailing_backslashes text
  have falls := fallsInto_scan body
  have line := falls.escaped.append_backslashes (backslashesAfterEscape count)
  have unchanged := @flatMap_replicate_eq_replicate _ _ Piece.replaced (.plain '\\')
    (.plain '\\') rfl (backslashesAfterEscape count)
  rw [escape_append_backslashes count ends, line.print_eq, line.replaced.print_eq]
  apply falls.printPieces_replaced keeps.of_append
  · rw [unchanged, printPieces_backslashes, replaceIcons_backslashes]
  · rw [unchanged]
    exact ⟨head?_backslashes _, head?_backslashes _⟩

theorem addsBracket_of_style {level : Level} {style : String}
    (styled : level.style? = some style) :
    ("[" ++ style ++ "]").toList.any addsBracket = false ∧
      ("[/" ++ style ++ "]").toList.any addsBracket = false := by
  cases level <;> cases styled <;> decide

/-- The same between style tags that hold no icon. -/
theorem KeepsIcons.print_styled {text : List Char} {style : String}
    (keeps : KeepsIcons text)
    (opening : IsTag ("[" ++ style ++ "]").toList)
    (closing : IsTag ("[/" ++ style ++ "]").toList)
    (openingAdds : ("[" ++ style ++ "]").toList.any addsBracket = false)
    (closingAdds : ("[/" ++ style ++ "]").toList.any addsBracket = false) :
    print (replaceIcons (styled style (escape text))) =
      replaceIcons (print (styled style (escape text))) := by
  obtain ⟨body, count, rfl, ends⟩ := exists_trailing_backslashes text
  have falls := fallsInto_scan body
  have line := falls.escaped.styled (falls.getLast?_escaped.symm ▸ ends) opening
    closing (backslashesAfterEscape count)
  have inside := @FallsInto.printPieces_replaced _ _
    [.tag (backslashesAfterEscape count) ("[/" ++ style ++ "]").toList] falls
    keeps.of_append (by
      rw [List.flatMap_singleton, replaced_tag _ closingAdds, printPieces_tag,
        printPieces_tag, replaceIcons_append, replaceIcons_printed]
      rfl) (by
      rw [List.flatMap_singleton, replaced_tag _ closingAdds]
      simp)
  rw [escape_append_backslashes count ends, line.print_eq, line.replaced.print_eq,
    List.flatMap_cons, replaced_tag _ openingAdds, List.singleton_append,
    printPieces_tag, printPieces_tag, inside, replaceIcons_append,
    replaceIcons_printed]

end ExportAudit.Markup

namespace ExportAudit

open Markup

/-! ## Lines of a report -/

/-- Printing a line with its icons replaced shows what the line shows, with
icons replaced. -/
def Fallback (line : List Char) : Prop :=
  Markup.print (replaceIcons line) = replaceIcons (Markup.print line)

/-- Characters without meaning in markup that stand before a line. -/
theorem Fallback.cons {character : Char} {line : List Char}
    (fallback : Fallback line)
    (plain : ∀ other ∈ character :: replacement character,
      other ≠ '\\' ∧ other ≠ '[') : Fallback (character :: line) := by
  rw [List.forall_mem_cons] at plain
  rw [Fallback, replaceIcons_cons, print_append plain.2, fallback,
    print_cons plain.1.1 plain.1.2, replaceIcons_cons]

theorem fallback_heading {heading : List Char} (keeps : KeepsIcons heading) :
    Fallback (styled "bold" (escape heading)) :=
  keeps.print_styled (by decide) (by decide) (by decide) (by decide)

theorem fallback_listedLine {diagnostic : Diagnostic}
    (keeps : KeepsIcons diagnostic.message.toList) :
    Fallback diagnostic.listedLine := by
  have markup : Fallback diagnostic.markup := by
    unfold Diagnostic.markup
    cases style : diagnostic.level.style? with
    | none => exact keeps.print_escape
    | some name =>
        have tags := isTag_of_style style
        have adds := addsBracket_of_style style
        exact keeps.print_styled tags.1 tags.2 adds.1 adds.2
  exact (markup.cons (forall_mem_of_all (by decide))).cons
    (forall_mem_of_all (by decide))

/-- Every line of a report is printed as it would be with its icons replaced. -/
theorem fallback_reportLines {diagnostics : List Diagnostic}
    (keeps : ∀ diagnostic ∈ diagnostics,
      KeepsIcons diagnostic.heading.toList ∧
        KeepsIcons diagnostic.message.toList) :
    ∀ line ∈ reportLines diagnostics, Fallback line := by
  have empty : Fallback [] := by
    rw [Fallback, replaceIcons_nil, FallsInto.nil.print_eq]
    rfl
  rw [reportLines_eq, forall_linesWith empty]
  exact fun diagnostic member => ⟨fallback_heading (keeps diagnostic member).1,
    fallback_listedLine (keeps diagnostic member).2⟩

/-! ## Layout -/

/-- A text holds no icon. -/
def HasNoIcon (text : List Char) : Prop :=
  ∀ character ∈ text, iconReplacements.lookup character = none

theorem HasNoIcon.replaceIcons_eq {text : List Char} (plain : HasNoIcon text) :
    replaceIcons text = text := by
  induction text with
  | nil => rfl
  | cons first text ih =>
      obtain ⟨unlisted, plain⟩ := List.forall_mem_cons.mp plain
      have own : replacement first = [first] := by
        simp [replacement, replaceIcons, unlisted]
      rw [replaceIcons_cons, own, ih plain, List.singleton_append]

theorem shown_replaceIcons_of_hasNoIcon {text : List Char}
    (plain : HasNoIcon text) :
    Console.shown (replaceIcons text) = replaceIcons (Console.shown text) := by
  have shown : HasNoIcon (Console.shown text) := by
    intro character member
    rcases Text.mem_expandTabs member with rfl | rfl | inside
    · rfl
    · rfl
    · exact plain character (List.mem_filter.mp inside).1
  rw [plain.replaceIcons_eq, shown.replaceIcons_eq]

theorem filter_replaceIcons (text : List Char) :
    (replaceIcons text).filter (fun character => !Console.omits character) =
      replaceIcons (text.filter fun character => !Console.omits character) := by
  induction text with
  | nil => rfl
  | cons first text ih =>
      rw [replaceIcons_cons, List.filter_append, ih]
      rcases replacement_cases first with own | icon
      · cases omitted : Console.omits first <;>
          simp [own, omitted, replaceIcons_cons]
      · have kept : (replacement first).filter
            (fun character => !Console.omits character) = replacement first :=
          List.filter_eq_self.mpr fun character member => by
            rw [(icon.shown character member).2.2]
            rfl
        simp [kept, icon.kept, replaceIcons_cons]

theorem shown_replaceIcons_of_not_mem {text : List Char} (noTab : '\t' ∉ text) :
    Console.shown (replaceIcons text) = replaceIcons (Console.shown text) := by
  have replaced : '\t' ∉ replaceIcons text := by
    intro tab
    obtain ⟨character, member, tab⟩ := List.mem_flatMap.mp tab
    have tab : '\t' ∈ replacement character := by
      simpa [replacement, replaceIcons] using tab
    rcases replacement_cases character with own | icon
    · rw [own, List.mem_singleton] at tab
      exact noTab (tab ▸ member)
    · exact (icon.shown _ tab).2.1 rfl
  rw [Console.shown, Console.shown, Text.expandTabs_eq_self,
    Text.expandTabs_eq_self, filter_replaceIcons]
  · exact fun tab => noTab (List.mem_filter.mp tab).1
  · exact fun tab => replaced (List.mem_filter.mp tab).1

/-- Icons and tabs do not come together in a text. -/
def LaysOutAlike (text : List Char) : Prop := '\t' ∉ text ∨ HasNoIcon text

theorem LaysOutAlike.shown_print {line : List Char} (alike : LaysOutAlike line) :
    Console.shown (replaceIcons (Markup.print line)) =
      replaceIcons (Console.shown (Markup.print line)) := by
  have printed := print_sublist line
  rcases alike with noTab | plain
  · exact shown_replaceIcons_of_not_mem fun tab => noTab (printed.subset tab)
  · exact shown_replaceIcons_of_hasNoIcon fun character member =>
      plain character (printed.subset member)

theorem laysOutAlike_heading {heading : List Char} (alike : LaysOutAlike heading) :
    LaysOutAlike (styled "bold" (escape heading)) := by
  rcases alike with noTab | plain
  · refine .inl fun tab => ?_
    refine forall_mem_styled_escape (fun character => character ≠ '\t')
      (forall_mem_of_all (by decide)) (forall_mem_of_all (by decide)) (by decide) ?_
      _ tab rfl
    exact fun character member same => noTab (same ▸ member)
  · exact .inr (forall_mem_styled_escape _ (forall_mem_of_all (by decide))
      (forall_mem_of_all (by decide)) rfl plain)

theorem laysOutAlike_listedLine {diagnostic : Diagnostic}
    (noTab : '\t' ∉ diagnostic.message.toList) :
    LaysOutAlike diagnostic.listedLine := by
  have inside : ∀ character ∈ diagnostic.message.toList, character ≠ '\t' :=
    fun character member same => noTab (same ▸ member)
  have markup : ∀ character ∈ diagnostic.markup, character ≠ '\t' := by
    unfold Diagnostic.markup
    cases level : diagnostic.level with
    | info => exact forall_mem_escape (by decide) inside
    | warn | error =>
        exact forall_mem_styled_escape _ (forall_mem_of_all (by decide))
          (forall_mem_of_all (by decide)) (by decide) inside
  refine .inl fun tab => ?_
  rcases List.mem_append.mp tab with arrow | tab
  · exact absurd arrow (by decide)
  · exact markup _ tab rfl

/-! ## The report -/

theorem render_fallback {diagnostics : List Diagnostic}
    (keeps : ∀ diagnostic ∈ diagnostics,
      KeepsIcons diagnostic.heading.toList ∧
        KeepsIcons diagnostic.message.toList) :
    render ⟨true⟩ diagnostics =
      (reportLines diagnostics).flatMap fun line =>
        Console.shown (replaceIcons (Markup.print line)) ++ ['\n'] := by
  refine List.flatMap_congr fun line member => ?_
  rw [← fallback_reportLines keeps line member]
  rfl

/-- A line of a report without markup as a console prints it. -/
def Console.printText (console : Console) (text : List Char) : List Char :=
  let kept := withoutLooseBackslashes text
  shown (if console.replacesIcons then replaceIcons kept else kept) ++ ['\n']

/-- The texts of diagnostics come through the escaping of markup and, where a
console needs it, through the replacement of icons. -/
structure Console.Conveys (console : Console) (diagnostics : List Diagnostic) :
    Prop where
  ends : ∀ diagnostic ∈ diagnostics, diagnostic.EndsPlainly
  keeps : console.replacesIcons = true → ∀ diagnostic ∈ diagnostics,
    KeepsIcons diagnostic.heading.toList ∧
      KeepsIcons diagnostic.message.toList

/-- A report consists of the lines of its diagnostics, group by group. -/
theorem render_eq_printTexts {console : Console} {diagnostics : List Diagnostic}
    (conveys : console.Conveys diagnostics) :
    render console diagnostics =
      (reportTexts diagnostics).flatMap console.printText := by
  obtain ⟨replaces⟩ := console
  cases replaces with
  | false => exact render_eq_shown conveys.ends
  | true =>
      calc render ⟨true⟩ diagnostics
        _ = ((reportLines diagnostics).map Markup.print).flatMap fun text =>
              Console.shown (replaceIcons text) ++ ['\n'] := by
            rw [render_fallback (conveys.keeps rfl), List.flatMap_map]
        _ = ((reportTexts diagnostics).map withoutLooseBackslashes).flatMap
              fun text => Console.shown (replaceIcons text) ++ ['\n'] := by
            rw [map_print_reportLines conveys.ends]
        _ = _ := List.flatMap_map _ _ _

/-- A terminal that does not show Unicode gets the lines that one which does
gets, with their icons replaced, if no icon replaced by a bracketed word stands
behind a backslash.  Without tabs beside icons its whole report is the other one
with its icons replaced. -/
theorem render_ascii {diagnostics : List Diagnostic}
    (keeps : ∀ diagnostic ∈ diagnostics,
      KeepsIcons diagnostic.heading.toList ∧
        KeepsIcons diagnostic.message.toList) :
    render ⟨true⟩ diagnostics =
      (reportLines diagnostics).flatMap (fun line =>
        Console.shown (replaceIcons (Markup.print line)) ++ ['\n']) ∧
    ((∀ diagnostic ∈ diagnostics, LaysOutAlike diagnostic.heading.toList ∧
        '\t' ∉ diagnostic.message.toList) →
      render ⟨true⟩ diagnostics = replaceIcons (render ⟨false⟩ diagnostics)) := by
  have printed := render_fallback keeps
  refine ⟨printed, fun alike => ?_⟩
  have lines : ∀ line ∈ reportLines diagnostics, LaysOutAlike line := by
    rw [reportLines_eq, forall_linesWith (.inr fun _ member => by cases member)]
    exact fun diagnostic member => ⟨laysOutAlike_heading (alike diagnostic member).1,
      laysOutAlike_listedLine (alike diagnostic member).2⟩
  have whole : replaceIcons (render ⟨false⟩ diagnostics) =
      (reportLines diagnostics).flatMap fun line =>
        replaceIcons (Console.shown (Markup.print line) ++ ['\n']) :=
    List.flatMap_assoc
  rw [printed, whole]
  refine List.flatMap_congr fun line member => ?_
  rw [(lines line member).shown_print, replaceIcons_append]
  rfl

/-- A finding with icons in and beside what looks like a tag. -/
def iconic : Diagnostic :=
  ⟨.warn, "\\[b] … [a✓] ✗", some "✓.ts", none⟩

/-- Icons in what looks like a tag are replaced like others. -/
theorem render_ascii_iconic :
    render ⟨true⟩ [iconic] =
      "[OK].ts\n-> \\[b] ... [a[OK]] [FAIL]\n\n".toList := by
  have fallback := (@render_ascii [iconic] (by decide)).2
    (List.forall_mem_singleton.mpr ⟨.inl (by decide), by decide⟩)
  have ends : ∀ diagnostic ∈ [iconic], diagnostic.EndsPlainly :=
    List.forall_mem_singleton.mpr ⟨by decide, by decide⟩
  rw [fallback, render_eq_shown ends]
  decide

end ExportAudit
