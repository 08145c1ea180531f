import ExportAudit.Pattern.Wide
import ExportAudit.Proofs.Text.Parts

/-!
# Patterns with and without lone surrogates

A pattern without lone surrogates is read as it stands.  A range of a bracket
expression that starts or ends at one has the characters of names between its
ends, and it is reversed if they are.
-/

namespace ExportAudit

/-- The number of a point in the order of ranges. -/
def Point.codePoint : Point → Nat
  | .character value => value.toNat
  | .surrogate unit => unit

/-- The number of a lone surrogate is one of a surrogate. -/
def Point.IsCodePoint : Point → Prop
  | .character _ => True
  | .surrogate unit => 0xd800 ≤ unit ∧ unit < 0xe000

namespace Pattern

/-! ## Ranges -/

theorem le_iff_toNat_le {left right : Char} :
    left ≤ right ↔ left.toNat ≤ right.toNat := Iff.rfl

/-- No character stands between surrogates. -/
theorem outside_surrogates (character : Char) :
    character.toNat < 0xd800 ∨ 0xe000 ≤ character.toNat := by
  obtain below | ⟨above, _⟩ := character.valid
  · exact .inl below
  · exact .inr above

variable {lowest highest : Point}

/-- A range is reversed exactly if its ends are. -/
theorem isProper_rangeEnds (low : lowest.IsCodePoint)
    (high : highest.IsCodePoint) :
    (SetItem.range (rangeEnds lowest highest).1
        (rangeEnds lowest highest).2).isProper = true ↔
      lowest.codePoint ≤ highest.codePoint := by
  rw [SetItem.isProper, decide_eq_true_eq, le_iff_toNat_le]
  cases lowest with
  | character first =>
      have outside := outside_surrogates first
      cases highest with
      | character last => rfl
      | surrogate unit =>
          change first.toNat ≤ 0xd7ff ↔ first.toNat ≤ unit
          obtain ⟨above, below⟩ := high
          omega
  | surrogate unit =>
      obtain ⟨above, below⟩ := low
      cases highest with
      | character last =>
          have outside := outside_surrogates last
          change 0xe000 ≤ last.toNat ↔ unit ≤ last.toNat
          omega
      | surrogate other =>
          change _ ↔ unit ≤ other
          rw [rangeEnds]
          split
          · next ordered => simp [ordered]
          · next reversed => simpa using reversed

/-- A range has the characters of names between its ends. -/
theorem covers_rangeEnds (low : lowest.IsCodePoint)
    (high : highest.IsCodePoint) {character : Char}
    (present : character ≠ '\x00') :
    (SetItem.range (rangeEnds lowest highest).1
        (rangeEnds lowest highest).2).covers character = true ↔
      lowest.codePoint ≤ character.toNat ∧
        character.toNat ≤ highest.codePoint := by
  rw [SetItem.covers, Bool.and_eq_true, decide_eq_true_eq, decide_eq_true_eq,
    le_iff_toNat_le, le_iff_toNat_le]
  have outside := outside_surrogates character
  cases lowest with
  | character first =>
      cases highest with
      | character last => rfl
      | surrogate unit =>
          change first.toNat ≤ _ ∧ character.toNat ≤ 0xd7ff ↔
            first.toNat ≤ _ ∧ character.toNat ≤ unit
          obtain ⟨above, below⟩ := high
          omega
  | surrogate unit =>
      obtain ⟨above, below⟩ := low
      cases highest with
      | character last =>
          change 0xe000 ≤ character.toNat ∧ _ ≤ last.toNat ↔
            unit ≤ character.toNat ∧ _ ≤ last.toNat
          omega
      | surrogate other =>
          obtain ⟨otherAbove, otherBelow⟩ := high
          change _ ↔ unit ≤ character.toNat ∧ character.toNat ≤ other
          have positive : 0 < character.toNat := by
            apply Nat.pos_of_ne_zero
            exact fun zero => present (Char.toNat_inj.mp zero)
          rw [rangeEnds]
          split
          · change 0 ≤ character.toNat ∧ character.toNat ≤ 0 ↔ _
            omega
          · change 0xe000 ≤ character.toNat ∧ character.toNat ≤ 0xd7ff ↔ _
            omega

/-! ## Texts without surrogates -/

theorem itemText_character (body : List Char) :
    itemText (body.map .character) = body := by
  fun_induction SetItem.ofBody body with
  | case1 lowest highest rest ih =>
      exact congrArg (lowest :: '-' :: highest :: ·) ih
  | case2 character rest noRange ih =>
      have alone : ∀ highest others,
          rest.map Point.character ≠ .character '-' :: highest :: others := by
        intro highest others same
        obtain ⟨_, later, rfl, hyphen, same⟩ := List.map_eq_cons_iff.mp same
        obtain ⟨last, onward, rfl, _, _⟩ := List.map_eq_cons_iff.mp same
        cases hyphen
        exact noRange last onward rfl
      rw [List.map_cons, itemText, ih]
      · rfl
      · exact alone
  | case3 => rfl

theorem bodyText_character (body : List Char) :
    bodyText (body.map .character) = body := by
  cases body with
  | nil => rfl
  | cons first rest =>
      by_cases mark : first = '!'
      · rw [mark, List.map_cons, bodyText, itemText_character]
      · rw [bodyText, itemText_character]
        intro others same
        cases same
        exact mark rfl

theorem patternText_character (text : List Char) :
    patternText (text.map .character) = text := by
  cases text with
  | nil => rw [List.map_nil, patternText]
  | cons first rest =>
      by_cases opening : first = '['
      · rw [opening, List.map_cons, patternText, WideText.map_characterOr]
        split
        · next length _ =>
          rw [← List.map_take, ← List.map_drop, bodyText_character,
            patternText_character (rest.drop length), List.take_append_drop]
        · rw [patternText_character rest]
      · rw [List.map_cons, patternText, patternText_character rest]
        · rfl
        · exact fun same => opening (Point.character.inj same)
termination_by text.length
decreasing_by all_goals grind

end Pattern

namespace WideText

@[simp] theorem asExclude_ofString (text : String) :
    (ofString text).asExclude = text := by
  rw [asExclude, ofString, Pattern.patternText_character,
    String.ofList_toList]

@[simp] theorem asInclude_ofString (text : String) :
    (ofString text).asInclude = text := by
  have parts : (ofString text).points.splitOn (.character '/') =
      (text.toList.splitOn '/').map (List.map Point.character) :=
    Text.splitOn_map (fun _ _ => Point.character.inj) '/' text.toList
  have kept : Pattern.patternText ∘ List.map Point.character = id :=
    funext Pattern.patternText_character
  rw [asInclude, parts, List.map_map, kept, List.map_id,
    List.intercalate_splitOn, String.ofList_toList]

end WideText

end ExportAudit
