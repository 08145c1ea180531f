import Mathlib.Data.List.Basic
import ExportAudit.Proofs.Report.Escaping
import ExportAudit.Proofs.Text.Parts

/-!
# Reports on a terminal

A terminal that shows Unicode lists the diagnostics of each group below their
heading, and leaves an empty line after each group.  Nothing in a message or a
heading is taken for markup, and nothing of them is lost except backslashes
directly before a bracket that opens no tag.
-/

namespace ExportAudit

/-! ## Groups -/

/-- A map to lists has a value among those of a key. -/
def Association.Lists {κ ν : Type} (entries : List (κ × List ν)) (key : κ)
    (value : ν) : Prop :=
  ∃ entry ∈ entries, entry.1 = key ∧ value ∈ entry.2

theorem Association.lists_update {κ ν : Type} [DecidableEq κ] {key other : κ}
    {added value : ν} {entries : List (κ × List ν)} :
    Lists (update key [] (· ++ [added]) entries) other value ↔
      Lists entries other value ∨ (key = other ∧ added = value) := by
  induction entries with
  | nil => simp [Lists, update, eq_comm]
  | cons entry rest ih =>
      have atHead : ∀ (entry : κ × List ν) rest, Lists (entry :: rest) other value ↔
          (entry.1 = other ∧ value ∈ entry.2) ∨ Lists rest other value := by
        simp [Lists]
      unfold update
      split
      · next same =>
        rw [atHead, atHead, ← same, List.mem_append, List.mem_singleton,
          and_or_left, @eq_comm _ value]
        exact or_right_comm
      · rw [atHead, atHead, ih, or_assoc]

/-- A diagnostic is in the group of its heading and in no other one. -/
theorem lists_groupByFile {diagnostics : List Diagnostic} {heading : String}
    {diagnostic : Diagnostic} :
    Association.Lists (groupByFile diagnostics) heading diagnostic ↔
      diagnostic ∈ diagnostics ∧ diagnostic.heading = heading := by
  have gathered : ∀ groups : List (String × List Diagnostic),
      Association.Lists (diagnostics.foldl (fun groups diagnostic =>
          Association.update diagnostic.heading [] (· ++ [diagnostic]) groups)
        groups) heading diagnostic ↔
      Association.Lists groups heading diagnostic ∨
        (diagnostic ∈ diagnostics ∧ diagnostic.heading = heading) := by
    induction diagnostics with
    | nil => simp
    | cons first rest ih =>
        intro groups
        rw [List.foldl_cons, ih, Association.lists_update, or_assoc,
          List.mem_cons, or_and_right]
        refine or_congr_right (or_congr_left ?_)
        constructor
        · rintro ⟨same, rfl⟩
          exact ⟨rfl, same⟩
        · rintro ⟨rfl, same⟩
          exact ⟨same, rfl⟩
  have kept : ∀ groups : List (String × List Diagnostic),
      Association.Lists (groups.filter fun group => !group.2.isEmpty) heading
        diagnostic ↔ Association.Lists groups heading diagnostic := by
    intro groups
    constructor
    · rintro ⟨group, member, listed⟩
      exact ⟨group, (List.mem_filter.mp member).1, listed⟩
    · rintro ⟨group, member, same, listed⟩
      refine ⟨group, List.mem_filter.mpr ⟨member, ?_⟩, same, listed⟩
      simp [List.ne_nil_of_mem listed]
  rw [groupByFile, kept, gathered]
  simp [Association.Lists]

/-! ## Lines without markup -/

/-- The lines of a report, given how headings and diagnostics are written: for
each group its heading, its diagnostics and an empty line. -/
def linesWith (heading : String → List Char) (listed : Diagnostic → List Char)
    (diagnostics : List Diagnostic) : List (List Char) :=
  (groupByFile diagnostics).flatMap fun group =>
    [heading group.1] ++ group.2.map listed ++ [[]]

/-- The lines of a report without markup. -/
def reportTexts (diagnostics : List Diagnostic) : List (List Char) :=
  linesWith String.toList
    (fun diagnostic => ['➜', ' '] ++ diagnostic.message.toList) diagnostics

/-- Diagnostics below their headings, with an empty line after each group. -/
def listing (diagnostics : List Diagnostic) : List Char :=
  (reportTexts diagnostics).flatMap (· ++ ['\n'])

theorem reportLines_eq (diagnostics : List Diagnostic) :
    reportLines diagnostics =
      linesWith (fun heading => styled "bold" (Markup.escape heading.toList))
        Diagnostic.listedLine diagnostics := rfl

section

variable {diagnostics : List Diagnostic} {heading : String → List Char}
  {listed : Diagnostic → List Char}

theorem nonempty_of_mem_groupByFile {group : String × List Diagnostic}
    (member : group ∈ groupByFile diagnostics) :
    ∃ diagnostic, diagnostic ∈ group.2 := by
  have nonempty := (List.mem_filter.mp member).2
  cases listed : group.2 with
  | nil => simp [listed] at nonempty
  | cons first rest => exact ⟨first, List.mem_cons_self⟩

/-- What holds of every line of a report holds of the headings of its
diagnostics and of the diagnostics as they are listed. -/
theorem forall_linesWith {property : List Char → Prop} (empty : property []) :
    (∀ line ∈ linesWith heading listed diagnostics, property line) ↔
      ∀ diagnostic ∈ diagnostics, property (heading diagnostic.heading) ∧
        property (listed diagnostic) := by
  constructor
  · intro holds diagnostic member
    obtain ⟨group, grouped, same, inside⟩ :=
      lists_groupByFile.mpr ⟨member, rfl⟩
    have ofGroup : ∀ line ∈ [heading group.1] ++ group.2.map listed ++ [[]],
        property line := fun line inGroup =>
      holds line (List.mem_flatMap.mpr ⟨group, grouped, inGroup⟩)
    refine ⟨same ▸ ofGroup _ (by simp), ofGroup _ ?_⟩
    refine List.mem_append_left _ (List.mem_append_right _ ?_)
    exact List.mem_map_of_mem inside
  · intro holds line member
    obtain ⟨group, grouped, inGroup⟩ := List.mem_flatMap.mp member
    have ofGroup : ∀ diagnostic ∈ group.2,
        diagnostic ∈ diagnostics ∧ diagnostic.heading = group.1 :=
      fun diagnostic inside =>
        lists_groupByFile.mp ⟨group, grouped, rfl, inside⟩
    simp only [List.mem_append, List.mem_singleton, List.mem_map] at inGroup
    rcases inGroup with (rfl | ⟨diagnostic, inside, rfl⟩) | rfl
    · obtain ⟨diagnostic, inside⟩ := nonempty_of_mem_groupByFile grouped
      obtain ⟨member, same⟩ := ofGroup diagnostic inside
      exact same ▸ (holds diagnostic member).1
    · exact (holds diagnostic (ofGroup diagnostic inside).1).2
    · exact empty

theorem map_linesWith {change : List Char → List Char} (empty : change [] = []) :
    (linesWith heading listed diagnostics).map change =
      linesWith (fun name => change (heading name))
        (fun diagnostic => change (listed diagnostic)) diagnostics := by
  unfold linesWith
  rw [List.map_flatMap]
  simp [empty, Function.comp_def]

theorem linesWith_congr {otherHeading : String → List Char}
    {otherListed : Diagnostic → List Char}
    (same : ∀ diagnostic ∈ diagnostics,
      heading diagnostic.heading = otherHeading diagnostic.heading ∧
        listed diagnostic = otherListed diagnostic) :
    linesWith heading listed diagnostics =
      linesWith otherHeading otherListed diagnostics := by
  refine List.flatMap_congr fun group grouped => ?_
  have ofGroup : ∀ diagnostic ∈ group.2,
      heading group.1 = otherHeading group.1 ∧
        listed diagnostic = otherListed diagnostic := by
    intro diagnostic inside
    obtain ⟨member, named⟩ := lists_groupByFile.mp ⟨group, grouped, rfl, inside⟩
    exact named ▸ same diagnostic member
  obtain ⟨first, inside⟩ := nonempty_of_mem_groupByFile grouped
  rw [(ofGroup first inside).1,
    List.map_congr_left fun diagnostic inside => (ofGroup diagnostic inside).2]

end

/-! ## Printed lines -/

open Markup

/-- Neither the message of a diagnostic nor the file it names ends in a
backslash. -/
def Diagnostic.EndsPlainly (diagnostic : Diagnostic) : Prop :=
  diagnostic.message.toList.getLast? ≠ some '\\' ∧
    ∀ file ∈ diagnostic.file, file.toList.getLast? ≠ some '\\'

theorem Diagnostic.EndsPlainly.heading {diagnostic : Diagnostic}
    (plain : diagnostic.EndsPlainly) :
    diagnostic.heading.toList.getLast? ≠ some '\\' := by
  unfold Diagnostic.heading
  split
  · decide
  · next file named => exact plain.2 _ named
  · decide

theorem print_heading {heading : String}
    (ends : heading.toList.getLast? ≠ some '\\') :
    Markup.print (styled "bold" (escape heading.toList)) =
      withoutLooseBackslashes heading.toList :=
  print_styled_escape ends (by decide) (by decide)

theorem print_markup {diagnostic : Diagnostic}
    (ends : diagnostic.message.toList.getLast? ≠ some '\\') :
    Markup.print diagnostic.markup =
      withoutLooseBackslashes diagnostic.message.toList := by
  unfold Diagnostic.markup
  cases style : diagnostic.level.style? with
  | none => exact print_escape ends
  | some name =>
      have tags := isTag_of_style style
      exact print_styled_escape ends tags.1 tags.2

theorem print_listedLine {diagnostic : Diagnostic}
    (ends : diagnostic.message.toList.getLast? ≠ some '\\') :
    Markup.print diagnostic.listedLine =
      withoutLooseBackslashes (['➜', ' '] ++ diagnostic.message.toList) := by
  rw [Diagnostic.listedLine, print_append (forall_mem_of_all (by decide)),
    print_markup ends]
  rfl

/-- The lines of a report are printed without their loose backslashes. -/
theorem map_print_reportLines {diagnostics : List Diagnostic}
    (ends : ∀ diagnostic ∈ diagnostics, diagnostic.EndsPlainly) :
    (reportLines diagnostics).map Markup.print =
      (reportTexts diagnostics).map withoutLooseBackslashes := by
  rw [reportLines_eq, reportTexts, map_linesWith FallsInto.nil.print_eq,
    map_linesWith rfl]
  exact linesWith_congr fun diagnostic member =>
    ⟨print_heading (ends diagnostic member).heading,
      print_listedLine (ends diagnostic member).1⟩

/-! ## What a console leaves out -/

/-- A console shows every character of a text, and lays out none of them. -/
def Console.Keeps (text : List Char) : Prop :=
  ∀ character ∈ text, Console.omits character = false ∧ character ≠ '\t'

theorem Console.shown_eq_self {text : List Char} (keeps : Keeps text) :
    shown text = text := by
  have all : text.filter (fun character => !omits character) = text :=
    List.filter_eq_self.mpr fun character member => by
      rw [(keeps character member).1]
      rfl
  rw [shown, all]
  exact Text.expandTabs_eq_self fun member => (keeps _ member).2 rfl

theorem withoutLooseBackslashes_sublist (text : List Char) :
    (withoutLooseBackslashes text).Sublist text := by
  fun_induction withoutLooseBackslashes text with
  | case1 => exact .slnil
  | case2 first rest loose ih => exact ih.cons first
  | case3 first rest tight ih => exact ih.cons_cons first

section

variable {α β : Type} {items : List α} {shorter longer : α → List β}

theorem length_flatMap_le
    (length : ∀ item ∈ items, (shorter item).length ≤ (longer item).length) :
    (items.flatMap shorter).length ≤ (items.flatMap longer).length := by
  induction items with
  | nil => rfl
  | cons first rest ih =>
      rw [List.forall_mem_cons] at length
      rw [List.flatMap_cons, List.flatMap_cons, List.length_append,
        List.length_append]
      exact Nat.add_le_add length.1 (ih length.2)

/-- Two texts made of equally many parts, those of one no longer than those of
the other, are equal only if their parts are. -/
theorem flatMap_eq_flatMap_iff
    (length : ∀ item ∈ items, (shorter item).length ≤ (longer item).length) :
    items.flatMap shorter = items.flatMap longer ↔
      ∀ item ∈ items, shorter item = longer item := by
  refine ⟨fun same => ?_, List.flatMap_congr⟩
  induction items with
  | nil => simp
  | cons first rest ih =>
      rw [List.forall_mem_cons] at length ⊢
      have lengths := length_flatMap_le length.2
      rw [List.flatMap_cons, List.flatMap_cons] at same
      have total := congrArg List.length same
      rw [List.length_append, List.length_append] at total
      obtain ⟨head, tail⟩ := List.append_inj same (by omega)
      exact ⟨head, ih length.2 tail⟩

end

/-! ## The report -/

theorem hasLooseBackslash_listed {message : List Char} :
    HasLooseBackslash (['➜', ' '] ++ message) ↔ HasLooseBackslash message := by
  simp [hasLooseBackslash_cons]

section

variable {diagnostics : List Diagnostic}

theorem render_eq_shown
    (ends : ∀ diagnostic ∈ diagnostics, diagnostic.EndsPlainly) :
    render ⟨false⟩ diagnostics =
      (reportTexts diagnostics).flatMap fun text =>
        Console.shown (withoutLooseBackslashes text) ++ ['\n'] :=
  calc render ⟨false⟩ diagnostics
    _ = ((reportLines diagnostics).map Markup.print).flatMap fun text =>
          Console.shown text ++ ['\n'] := by
        rw [List.flatMap_map]
        rfl
    _ = ((reportTexts diagnostics).map withoutLooseBackslashes).flatMap
          fun text => Console.shown text ++ ['\n'] := by
        rw [map_print_reportLines ends]
    _ = _ := List.flatMap_map _ _ _

/-- The lines of a report are shown in full where the texts of its diagnostics
are. -/
theorem shown_withoutLooseBackslashes
    (keeps : ∀ diagnostic ∈ diagnostics,
      Console.Keeps diagnostic.heading.toList ∧
        Console.Keeps diagnostic.message.toList) :
    ∀ text ∈ reportTexts diagnostics,
      Console.shown (withoutLooseBackslashes text) =
        withoutLooseBackslashes text := by
  have lines : ∀ text ∈ reportTexts diagnostics, Console.Keeps text := by
    rw [reportTexts, forall_linesWith (by simp [Console.Keeps])]
    intro diagnostic member
    obtain ⟨heading, message⟩ := keeps diagnostic member
    exact ⟨heading, List.forall_mem_append.mpr
      ⟨forall_mem_of_all (by decide), message⟩⟩
  intro text member
  exact Console.shown_eq_self fun character inside => lines text member character
    ((withoutLooseBackslashes_sublist text).subset inside)

theorem render_eq_listing_iff
    (ends : ∀ diagnostic ∈ diagnostics, diagnostic.EndsPlainly)
    (keeps : ∀ diagnostic ∈ diagnostics,
      Console.Keeps diagnostic.heading.toList ∧
        Console.Keeps diagnostic.message.toList) :
    render ⟨false⟩ diagnostics = listing diagnostics ↔
      ∀ diagnostic ∈ diagnostics,
        ¬ HasLooseBackslash diagnostic.heading.toList ∧
          ¬ HasLooseBackslash diagnostic.message.toList := by
  have shown := shown_withoutLooseBackslashes keeps
  have lengths : ∀ text ∈ reportTexts diagnostics,
      (Console.shown (withoutLooseBackslashes text) ++ ['\n']).length ≤
        (text ++ ['\n']).length := by
    intro text member
    rw [shown text member]
    simpa using length_withoutLooseBackslashes_le text
  have same : ∀ text ∈ reportTexts diagnostics,
      (Console.shown (withoutLooseBackslashes text) ++ ['\n'] = text ++ ['\n'] ↔
        ¬ HasLooseBackslash text) := by
    intro text member
    rw [shown text member, List.append_left_inj,
      withoutLooseBackslashes_eq_self_iff]
  rw [render_eq_shown ends, listing, flatMap_eq_flatMap_iff lengths,
    forall₂_congr same, reportTexts, forall_linesWith (by simp [HasLooseBackslash])]
  simp only [hasLooseBackslash_listed]

/-- A terminal that shows Unicode gets the heading of each group, its messages
behind arrows, and an empty line, as far as the terminal shows their
characters; only loose backslashes are missing.  Where it shows all characters,
this is the listing exactly if there are none. -/
theorem render_unicode
    (ends : ∀ diagnostic ∈ diagnostics, diagnostic.EndsPlainly) :
    render ⟨false⟩ diagnostics =
      (reportTexts diagnostics).flatMap (fun text =>
        Console.shown (withoutLooseBackslashes text) ++ ['\n']) ∧
    ((∀ diagnostic ∈ diagnostics, Console.Keeps diagnostic.heading.toList ∧
        Console.Keeps diagnostic.message.toList) →
      (render ⟨false⟩ diagnostics = listing diagnostics ↔
        ∀ diagnostic ∈ diagnostics,
          ¬ HasLooseBackslash diagnostic.heading.toList ∧
          ¬ HasLooseBackslash diagnostic.message.toList)) :=
  ⟨render_eq_shown ends, render_eq_listing_iff ends⟩

end

/-- A finding whose message looks like markup. -/
def tagged : Diagnostic :=
  ⟨.error, "unexpected [bold] or \\[/bold]", some "a[i].ts", some 3⟩

/-- A finding with a backslash before a bracket that opens no tag. -/
def bracketed : Diagnostic := ⟨.info, "\\[X]", none, none⟩

/-- What looks like a tag is listed, with the backslash in front of it; a loose
backslash is not. -/
theorem render_unicode_brackets :
    render ⟨false⟩ [tagged] =
      "a[i].ts\n➜ unexpected [bold] or \\[/bold]\n\n".toList ∧
    render ⟨false⟩ [bracketed] ≠ listing [bracketed] := by
  have endsTagged : ∀ diagnostic ∈ [tagged], diagnostic.EndsPlainly :=
    List.forall_mem_singleton.mpr ⟨by decide, by decide⟩
  have endsBracketed : ∀ diagnostic ∈ [bracketed], diagnostic.EndsPlainly :=
    List.forall_mem_singleton.mpr ⟨by decide, by decide⟩
  constructor
  · have listed := (render_unicode endsTagged).2 (List.forall_mem_singleton.mpr
      ⟨forall_mem_of_all (by decide), forall_mem_of_all (by decide)⟩)
    rw [listed.mpr (by
      simp only [← withoutLooseBackslashes_eq_self_iff]
      decide)]
    decide
  · intro listed
    have tight := (render_unicode endsBracketed).2 (List.forall_mem_singleton.mpr
      ⟨forall_mem_of_all (by decide), forall_mem_of_all (by decide)⟩)
    exact (tight.mp listed _ List.mem_cons_self).2
      ⟨_, List.suffix_rfl, by decide⟩

end ExportAudit
