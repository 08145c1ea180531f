import Mathlib.Data.List.Basic
import Mathlib.Data.List.Induction
import Mathlib.Data.List.Nodup
import ExportAudit.Report.Group

/-!
# Groups of a report

The groups are a stable partition of the diagnostics by their headings.  One
more diagnostic goes to the end of its group, or opens a group at the end, so
that a run over all diagnostics keeps the order of the headings' first
occurrences and, within a group, the order of the diagnostics.
-/

namespace ExportAudit

namespace Association

variable {κ ν : Type} [DecidableEq κ]

/-- A map to lists, entry by entry, gains the value that one of its lists does. -/
theorem flatMap_update_perm {key : κ} {added : ν} {entries : List (κ × List ν)} :
    ((update key [] (· ++ [added]) entries).flatMap Prod.snd).Perm
      (entries.flatMap Prod.snd ++ [added]) := by
  induction entries with
  | nil => exact List.Perm.refl _
  | cons entry rest ih =>
      unfold update
      split
      · rw [List.flatMap_cons, List.flatMap_cons, List.append_assoc,
          List.append_assoc]
        exact List.perm_append_comm.append_left _
      · rw [List.flatMap_cons, List.flatMap_cons, List.append_assoc]
        exact ih.append_left _

end Association

/-! ## One more diagnostic -/

/-- A heading may stand before another one: the other one is not the general
heading, and unless the first one is, it occurs earlier among the headings. -/
def Precedes (headings : List String) (left right : String) : Prop :=
  right ≠ generalHeading ∧ right ∈ headings ∧
    (left = generalHeading ∨ headings.idxOf left < headings.idxOf right)

/-- Groups, empty ones among them, into which some diagnostics were put. -/
structure Gathers (diagnostics : List Diagnostic)
    (groups : List (String × List Diagnostic)) : Prop where
  grouped : ∀ heading, (Association.find? heading groups).getD [] =
    diagnostics.filter (·.heading = heading)
  ordered : (Association.keys groups).Pairwise
    (Precedes (diagnostics.map Diagnostic.heading))
  general : generalHeading ∈ Association.keys groups
  occurs : ∀ heading ∈ Association.keys groups, heading ≠ generalHeading →
    heading ∈ diagnostics.map Diagnostic.heading
  complete : (groups.flatMap Prod.snd).Perm diagnostics

namespace Precedes

variable {headings : List String} {left right added : String}

/-- Headings that are added later change no order. -/
theorem concat (first : left = generalHeading ∨ left ∈ headings)
    (precedes : Precedes headings left right) :
    Precedes (headings ++ [added]) left right := by
  obtain ⟨special, occurs, before⟩ := precedes
  refine ⟨special, List.mem_append_left _ occurs, ?_⟩
  rw [List.idxOf_append_of_mem occurs]
  rcases before with general | before
  · exact .inl general
  · cases first with
    | inl general => exact .inl general
    | inr first => exact .inr (by rwa [List.idxOf_append_of_mem first])

/-- A heading that is new comes after all others. -/
theorem new (first : left = generalHeading ∨ left ∈ headings)
    (special : added ≠ generalHeading) (absent : added ∉ headings) :
    Precedes (headings ++ [added]) left added := by
  refine ⟨special, List.mem_append_right _ (List.mem_singleton_self _), ?_⟩
  cases first with
  | inl general => exact .inl general
  | inr first =>
      refine .inr ?_
      rw [List.idxOf_append_of_mem first, List.idxOf_append_of_notMem absent]
      exact Nat.lt_add_right _ (List.idxOf_lt_length_of_mem first)

end Precedes

theorem gathers_nothing : Gathers [] [(generalHeading, [])] where
  grouped heading := by
    by_cases general : generalHeading = heading <;>
      simp [Association.find?, general]
  ordered := List.pairwise_singleton _ _
  general := List.mem_singleton_self _
  occurs heading listed special := absurd (List.mem_singleton.mp listed) special
  complete := .refl _

/-- A heading that occurs has a group. -/
theorem Gathers.mem_keys {diagnostics : List Diagnostic}
    {groups : List (String × List Diagnostic)}
    (gathers : Gathers diagnostics groups) {heading : String}
    (occurs : heading ∈ diagnostics.map Diagnostic.heading) :
    heading ∈ Association.keys groups := by
  obtain ⟨diagnostic, member, same⟩ := List.mem_map.mp occurs
  have inGroup : diagnostic ∈ (Association.find? heading groups).getD [] := by
    rw [gathers.grouped]
    exact List.mem_filter.mpr ⟨member, decide_eq_true same⟩
  have present : (Association.find? heading groups).isSome := by
    cases found : Association.find? heading groups with
    | none => simp [found] at inGroup
    | some group => rfl
  obtain ⟨entry, listed, key⟩ := Association.exists_mem_of_find?_isSome present
  exact key ▸ List.mem_map_of_mem listed

/-- One more diagnostic goes to the end of the group of its heading. -/
theorem Gathers.concat {diagnostics : List Diagnostic}
    {groups : List (String × List Diagnostic)}
    (gathers : Gathers diagnostics groups) (diagnostic : Diagnostic) :
    Gathers (diagnostics ++ [diagnostic])
      (Association.update diagnostic.heading [] (· ++ [diagnostic]) groups) := by
  have known : ∀ heading ∈ Association.keys groups,
      heading = generalHeading ∨ heading ∈ diagnostics.map Diagnostic.heading := by
    intro heading listed
    by_cases general : heading = generalHeading
    · exact .inl general
    · exact .inr (gathers.occurs heading listed general)
  have kept : (Association.keys groups).Pairwise (Precedes
      ((diagnostics ++ [diagnostic]).map Diagnostic.heading)) := by
    rw [List.map_append]
    exact gathers.ordered.imp_of_mem fun listed _ precedes =>
      precedes.concat (known _ listed)
  constructor
  case grouped =>
    intro heading
    rw [Association.find?_update, List.filter_append, ← gathers.grouped heading]
    by_cases same : diagnostic.heading = heading <;> simp [same]
  case ordered =>
    rw [Association.keys_update]
    split
    · exact kept
    · next absent =>
      refine List.pairwise_append.mpr ⟨kept, List.pairwise_singleton _ _, ?_⟩
      intro left listed right new
      cases List.mem_singleton.mp new
      have special : diagnostic.heading ≠ generalHeading := fun same =>
        absent (same ▸ gathers.general)
      rw [List.map_append]
      exact .new (known left listed) special fun seen =>
        absent (gathers.mem_keys seen)
  case general =>
    rw [Association.keys_update]
    split
    · exact gathers.general
    · exact List.mem_append_left _ gathers.general
  case occurs =>
    intro heading listed special
    rw [List.map_append]
    rw [Association.keys_update] at listed
    split at listed
    · exact List.mem_append_left _ (gathers.occurs heading listed special)
    · cases List.mem_append.mp listed with
      | inl earlier =>
          exact List.mem_append_left _ (gathers.occurs heading earlier special)
      | inr new => exact List.mem_append_right _ new
  case complete =>
    exact Association.flatMap_update_perm.trans
      (gathers.complete.append_right _)

/-! ## All diagnostics -/

theorem exists_gathers (diagnostics : List Diagnostic) :
    ∃ groups, Gathers diagnostics groups ∧
      groupByFile diagnostics = groups.filter fun group => !group.2.isEmpty := by
  refine ⟨_, ?_, rfl⟩
  induction diagnostics using List.reverseRecOn with
  | nil => exact gathers_nothing
  | append_singleton diagnostics diagnostic ih =>
      rw [List.foldl_concat]
      exact ih.concat diagnostic

/-- The groups that are left out are empty. -/
theorem flatMap_filter_nonempty (groups : List (String × List Diagnostic)) :
    (groups.filter fun group => !group.2.isEmpty).flatMap Prod.snd =
      groups.flatMap Prod.snd := by
  induction groups with
  | nil => rfl
  | cons group groups ih =>
      rw [List.filter_cons]
      cases listed : group.2 <;> simp [listed, ih]

theorem Gathers.nodup_keys {diagnostics : List Diagnostic}
    {groups : List (String × List Diagnostic)}
    (gathers : Gathers diagnostics groups) : (Association.keys groups).Nodup := by
  refine gathers.ordered.imp fun precedes same => ?_
  obtain ⟨special, _, before⟩ := precedes
  cases same
  exact before.elim special (Nat.lt_irrefl _)

/-- What a diagnostic is listed under: its file if it has one with a name, and the
general heading otherwise. -/
theorem Diagnostic.heading_eq_iff {diagnostic : Diagnostic} {heading : String} :
    diagnostic.heading = heading ↔
      (diagnostic.file = some heading ∧ heading ≠ "") ∨
        (diagnostic.file.getD "" = "" ∧ heading = "General") := by
  obtain ⟨level, message, file, line⟩ := diagnostic
  cases file with
  | none => simp [Diagnostic.heading, generalHeading, eq_comm]
  | some name =>
      by_cases empty : name = ""
      · subst empty
        simp only [Diagnostic.heading, generalHeading]
        simp only [Option.some.injEq, Option.getD_some, true_and]
        constructor
        · exact fun general => .inr general.symm
        · rintro (⟨same, nonempty⟩ | general)
          · exact absurd same.symm nonempty
          · exact general.symm
      · have named : Diagnostic.heading ⟨level, message, some name, line⟩ = name := by
          simp [Diagnostic.heading]
        rw [named]
        simp only [Option.some.injEq, Option.getD_some, empty, false_and, or_false]
        exact ⟨fun same => ⟨same, same ▸ empty⟩, And.left⟩

/-- The groups are a stable partition: no heading has two groups, no group is
empty, each group consists of the diagnostics under its heading in their order,
all groups together are the diagnostics, the general group comes before all
others, and these are in the order in which their headings first occur. -/
theorem groupByFile_stable (diagnostics : List Diagnostic) :
    (∀ diagnostic heading, Diagnostic.heading diagnostic = heading ↔
      (diagnostic.file = some heading ∧ heading ≠ "") ∨
        (diagnostic.file.getD "" = "" ∧ heading = "General")) ∧
    ((groupByFile diagnostics).map Prod.fst).Nodup ∧
    (∀ group ∈ groupByFile diagnostics, group.2 ≠ [] ∧
      group.2 = diagnostics.filter (·.heading = group.1)) ∧
    ((groupByFile diagnostics).flatMap Prod.snd).Perm diagnostics ∧
    ((groupByFile diagnostics).map Prod.fst).Pairwise fun left right =>
      right ≠ "General" ∧ (left = "General" ∨
        (diagnostics.map Diagnostic.heading).idxOf left <
          (diagnostics.map Diagnostic.heading).idxOf right) := by
  obtain ⟨groups, gathers, same⟩ := exists_gathers diagnostics
  have kept : ((groupByFile diagnostics).map Prod.fst).Sublist
      (Association.keys groups) := by
    rw [same]
    exact List.filter_sublist.map _
  refine ⟨fun _ _ => Diagnostic.heading_eq_iff, gathers.nodup_keys.sublist kept,
    ?_, ?_, ?_⟩
  · intro group listed
    rw [same] at listed
    obtain ⟨member, nonempty⟩ := List.mem_filter.mp listed
    constructor
    · intro empty
      rw [empty] at nonempty
      cases nonempty
    · rw [← gathers.grouped, Association.find?_eq_some_of_nodup
        gathers.nodup_keys member, Option.getD_some]
  · rw [same, flatMap_filter_nonempty]
    exact gathers.complete
  · refine (gathers.ordered.sublist kept).imp fun precedes => ?_
    exact ⟨precedes.1, precedes.2.2⟩

/-- Diagnostics of two files and of none, in turns. -/
def interleaved : List Diagnostic :=
  [⟨.warn, "x", some "b.ts", some 1⟩, ⟨.info, "y", none, none⟩,
    ⟨.error, "z", some "a.ts", none⟩, ⟨.warn, "x", some "b.ts", some 2⟩,
    ⟨.info, "w", some "", none⟩]

/-- The group of the first file has its two diagnostics in order. -/
theorem groupByFile_stable_interleaved :
    (groupByFile interleaved).map Prod.fst = ["General", "b.ts", "a.ts"] ∧
    ∀ group ∈ groupByFile interleaved, group.1 = "b.ts" →
      group.2 = [⟨.warn, "x", some "b.ts", some 1⟩,
        ⟨.warn, "x", some "b.ts", some 2⟩] := by
  refine ⟨by decide, fun group listed first => ?_⟩
  rw [((groupByFile_stable interleaved).2.2.1 group listed).2, first]
  decide

end ExportAudit
