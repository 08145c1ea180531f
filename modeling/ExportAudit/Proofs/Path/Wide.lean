import ExportAudit.Path
import ExportAudit.Proofs.Text.Parts

/-!
# Paths of texts with lone surrogates

A text denotes the same path whether or not it is read as one that may hold lone
surrogates.  Its path cannot be asked for exactly if the text holds the null
character or a lone surrogate that stands for no byte, or if it is relative to
such a path.
-/

namespace ExportAudit

/-- A point that no name in a file system holds. -/
inductive Point.IsRefused : Point → Prop where
  | null : IsRefused (.character '\x00')
  | surrogate {unit : Nat} (noByte : isByte unit = false) :
      IsRefused (.surrogate unit)

theorem Point.inName_eq_null {point : Point} :
    point.inName = '\x00' ↔ point.IsRefused := by
  cases point with
  | character value =>
      constructor
      · intro null
        cases (null : value = '\x00')
        exact .null
      · intro refused
        cases refused
        rfl
  | surrogate unit =>
      rw [inName]
      split
      · next byte =>
        refine iff_of_false (by decide) fun refused => ?_
        cases refused with
        | surrogate noByte =>
            rw [byte] at noByte
            cases noByte
      · next noByte =>
        exact iff_of_true rfl (.surrogate (Bool.eq_false_iff.mpr noByte))

namespace Path

variable {base : Path} {text : WideText}

theorem splitWideNames_ofString (text : String) :
    splitWideNames (.ofString text) = splitNames text := by
  have parts : (WideText.ofString text).points.splitOn (.character '/') =
      (text.toList.splitOn '/').map (List.map Point.character) :=
    Text.splitOn_map (fun _ _ => Point.character.inj) '/' text.toList
  have kept : ∀ part : List Char,
      (part.map Point.character).map Point.inName = part := by
    intro part
    rw [List.map_map]
    exact List.map_id part
  rw [splitWideNames, splitNames, parts, List.map_map]
  refine congrArg (List.filter _) (List.map_congr_left fun part _ => ?_)
  exact congrArg String.ofList (kept part)

/-- A text without surrogates denotes the path that it denotes as such. -/
theorem joinWide_ofString (base : Path) (text : String) :
    base.joinWide (.ofString text) = base.join text := by
  rw [joinWide, join, WideText.shown_ofString, splitWideNames_ofString]

theorem exists_null_splitWideNames :
    (∃ name ∈ splitWideNames text, '\x00' ∈ name.toList) ↔
      ∃ point ∈ text.points, point.IsRefused := by
  simp only [← Point.inName_eq_null]
  constructor
  · intro known
    obtain ⟨name, listed, null⟩ := known
    obtain ⟨part, cut, rfl⟩ := List.mem_map.mp (List.mem_filter.mp listed).1
    rw [String.toList_ofList] at null
    obtain ⟨point, inside, same⟩ := List.mem_map.mp null
    exact ⟨point, Text.mem_of_mem_splitOn cut inside, same⟩
  · intro known
    obtain ⟨point, member, null⟩ := known
    rw [← @List.intercalate_splitOn _ text.points _ _ (.character '/')] at member
    obtain slash | ⟨part, cut, inside⟩ := Text.mem_intercalate member
    · rw [slash] at null
      cases null
    · have holds : '\x00' ∈ (String.ofList (part.map Point.inName)).toList := by
        rw [String.toList_ofList]
        exact List.mem_map.mpr ⟨point, inside, null⟩
      refine ⟨_, List.mem_filter.mpr ⟨List.mem_map_of_mem cut, ?_⟩, holds⟩
      -- Neither the empty name nor `.` holds the null character.
      rw [Bool.and_eq_true, bne_iff_ne, bne_iff_ne]
      constructor <;>
        · intro same
          rw [same] at holds
          revert holds
          decide

/-- A path cannot be asked for if its text holds a point that no name holds, or
if it is relative to such a path. -/
theorem holdsNull_joinWide :
    (base.joinWide text).holdsNull = true ↔
      (∃ point ∈ text.points, point.IsRefused) ∨
        PathRoot.ofText? text.shown.toList = none ∧ base.holdsNull = true := by
  rw [← exists_null_splitWideNames]
  simp only [holdsNull, List.any_eq_true, decide_eq_true_eq]
  rw [joinWide]
  split
  · next root absolute => simp [absolute]
  · next relative =>
    simp only [relative, List.mem_append, or_and_right, exists_or, true_and]
    exact or_comm

/-- A lone surrogate cannot be asked for, unless it stands for a byte. -/
example : (Location.root.path.joinWide ⟨[.surrogate 0xd800]⟩).holdsNull = true ∧
    (Location.root.path.joinWide ⟨[.surrogate 0xdc80]⟩).holdsNull = false := by
  decide

end Path

end ExportAudit
