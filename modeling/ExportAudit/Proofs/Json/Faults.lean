import ExportAudit.Proofs.Json.Grammar

/-!
# Faults of texts

A text that is not read is malformed, or there is ground in it for another fault:
more brackets and braces that open than may stand inside one another, or more
digits than an integer may have.
-/

namespace ExportAudit.Json

/-- Whether a character opens an array or an object. -/
def isOpening (character : Char) : Bool := character = '[' || character = '{'

/-- There is ground in a text for a fault within limits.  Any text may be
malformed. -/
def Fault.HasGround (limits : Limits) (text : List Char) : Fault → Prop
  | .malformed => True
  | .tooDeep => limits.nesting < text.countP isOpening
  | .tooManyDigits count => limits.digits < count ∧ count ≤ text.countP isDigit

/-- A reader leaves the end of a text, or there is ground in the text for its
fault. -/
def Leaves (limits : Limits) (text : List Char) {α : Type} :
    Except Fault (α × List Char) → Prop
  | .ok found => found.2 <:+ text
  | .error fault => fault.HasGround limits text

variable {limits : Limits} {text other : List Char} {α β : Type}

theorem Fault.HasGround.mono {fault : Fault}
    (ground : fault.HasGround limits text) (inside : text.Sublist other) :
    fault.HasGround limits other := by
  cases fault with
  | malformed => trivial
  | tooDeep => exact Nat.lt_of_lt_of_le ground inside.countP_le
  | tooManyDigits count => exact ⟨ground.1, ground.2.trans inside.countP_le⟩

/-- Behind what opens an array or an object one level less is left. -/
theorem Fault.HasGround.opened {nesting digits : Nat} {first : Char}
    {fault : Fault} (opens : isOpening first = true)
    (ground : fault.HasGround ⟨nesting, digits⟩ text) :
    fault.HasGround ⟨nesting + 1, digits⟩ (first :: text) := by
  cases fault with
  | malformed => trivial
  | tooDeep =>
      rw [HasGround, List.countP_cons_of_pos opens]
      exact Nat.succ_lt_succ ground
  | tooManyDigits count =>
      exact ⟨ground.1, ground.2.trans (List.sublist_cons_self _ _).countP_le⟩

theorem Leaves.mono {result : Except Fault (α × List Char)}
    (leaves : Leaves limits text result) (inside : text <:+ other) :
    Leaves limits other result := by
  cases result with
  | ok found => exact leaves.trans inside
  | error fault => exact Fault.HasGround.mono leaves inside.sublist

theorem Leaves.opened {nesting digits : Nat} {first : Char}
    {result : Except Fault (α × List Char)} (opens : isOpening first = true)
    (leaves : Leaves ⟨nesting, digits⟩ text result) :
    Leaves ⟨nesting + 1, digits⟩ (first :: text) result := by
  cases result with
  | ok found => exact leaves.trans (List.suffix_cons _ _)
  | error fault => exact Fault.HasGround.opened opens leaves

theorem Leaves.bind {result : Except Fault (α × List Char)}
    {next : α × List Char → Except Fault (β × List Char)}
    (first : Leaves limits text result)
    (others : ∀ value rest, result = .ok (value, rest) → rest <:+ text →
      Leaves limits text (next (value, rest))) :
    Leaves limits text (result >>= next) := by
  cases result with
  | ok found => exact others found.1 found.2 rfl first
  | error fault => exact first

theorem leaves_orMalformed {found : Option (α × List Char)}
    (ends : ∀ value rest, found = some (value, rest) → rest <:+ text) :
    Leaves limits text (orMalformed found) := by
  cases found with
  | none => trivial
  | some result => exact ends result.1 result.2 rfl

theorem skipSpace_suffix (text : List Char) : skipSpace text <:+ text :=
  List.dropWhile_suffix isSpace

theorem leaves_readLiteral (text : List Char) :
    Leaves limits text (orMalformed (readLiteral text)) := by
  refine leaves_orMalformed fun value rest read => ?_
  obtain ⟨body, _, rfl, _⟩ := readLiteral_eq_some read
  exact ⟨body ++ ['"'], by simp⟩

/-! ## Words -/

theorem splitFraction_suffix (text : List Char) : (splitFraction text).2 <:+ text := by
  obtain ⟨fraction, same, _⟩ := @splitFraction_eq text _ _ rfl
  exact ⟨fraction, same.symm⟩

theorem splitExponent_suffix (text : List Char) : (splitExponent text).2 <:+ text := by
  obtain ⟨part, same, _⟩ := @splitExponent_eq text _ _ rfl
  exact ⟨part, same.symm⟩

theorem leaves_readMagnitude (negative : Bool) (text : List Char) :
    Leaves limits text (readMagnitude limits.digits negative text) := by
  rw [readMagnitude]
  refine .bind (leaves_orMalformed fun digits rest split => ?_) ?_
  · obtain ⟨same, _⟩ := splitIntegerPart_eq_some split
    exact ⟨digits, same.symm⟩
  · intro whole rest found ends
    obtain ⟨rfl, _, digits, _⟩ :=
      splitIntegerPart_eq_some (orMalformed_eq_ok.mp found)
    have left : (splitExponent (splitFraction rest).2).2 <:+ whole ++ rest :=
      (splitExponent_suffix _).trans ((splitFraction_suffix rest).trans ends)
    dsimp only
    split
    · split
      · next many =>
        have inside : whole.length ≤ (whole ++ rest).countP isDigit := by
          rw [List.countP_append, List.countP_eq_length.mpr digits]
          exact Nat.le_add_right _ _
        exact ⟨many, inside⟩
      · exact left
    · exact left

theorem leaves_readAtom (text : List Char) :
    Leaves limits text (readAtom limits.digits text) := by
  obtain ⟨word, rest, _, rfl, _, _, exact⟩ | ⟨rest, rfl, signed⟩ | unsigned :=
    readAtom_cases limits.digits text
  · rw [exact rest]
    exact List.suffix_append word rest
  · rw [signed]
    exact (leaves_readMagnitude true rest).mono (List.suffix_cons _ _)
  · rw [unsigned]
    exact leaves_readMagnitude false text

/-! ## Values -/

/-- All readers leave the end of a text, or there is ground for their fault. -/
structure ReadersLeave (steps : Nat) : Prop where
  value : ∀ limits text, Leaves limits text (readValue steps limits text)
  items : ∀ limits text, Leaves limits text (readItems steps limits text)
  members : ∀ limits known text,
    Leaves limits text (readMembers steps limits known text)

theorem ReadersLeave.readValue {steps : Nat} (readers : ReadersLeave steps)
    (limits : Limits) (text : List Char) :
    Leaves limits text (readValue (steps + 1) limits text) := by
  rw [Json.readValue.eq_def]
  dsimp only
  split
  · next rest =>
    refine ((leaves_readLiteral rest).bind fun value after _ ends => ?_).mono
      (List.suffix_cons _ _)
    exact ends
  · next rest =>
    cases limits with
    | mk nesting digits =>
    cases nesting with
    | zero => simp [Leaves, Fault.HasGround, isOpening]
    | succ nesting =>
        have inside := skipSpace_suffix rest
        refine Leaves.opened (by decide) (Leaves.mono ?_ inside)
        dsimp only
        split
        · next after closes => exact closes ▸ List.suffix_cons _ _
        · exact (readers.items _ _).bind fun _ _ _ ends => ends
  · next rest =>
    cases limits with
    | mk nesting digits =>
    cases nesting with
    | zero => simp [Leaves, Fault.HasGround, isOpening]
    | succ nesting =>
        have inside := skipSpace_suffix rest
        refine Leaves.opened (by decide) (Leaves.mono ?_ inside)
        dsimp only
        split
        · next after closes => exact closes ▸ List.suffix_cons _ _
        · exact (readers.members _ _ _).bind fun _ _ _ ends => ends
  · exact leaves_readAtom text

theorem ReadersLeave.readItems {steps : Nat} (readers : ReadersLeave steps)
    (limits : Limits) (text : List Char) :
    Leaves limits text (readItems (steps + 1) limits text) := by
  rw [Json.readItems]
  refine (readers.value limits text).bind fun value rest _ ends => ?_
  have inside := (skipSpace_suffix rest).trans ends
  dsimp only
  split
  · next after comma =>
    rw [comma] at inside
    refine Leaves.mono ?_ ((List.suffix_cons _ _).trans inside)
    exact ((readers.items _ _).mono (skipSpace_suffix after)).bind
      fun _ _ _ ends => ends
  · next after closes =>
    rw [closes] at inside
    exact (List.suffix_cons _ _).trans inside
  · trivial

theorem ReadersLeave.readMembers {steps : Nat} (readers : ReadersLeave steps)
    (limits : Limits) (known : List (WideText × Json)) (text : List Char) :
    Leaves limits text (readMembers (steps + 1) limits known text) := by
  rw [Json.readMembers.eq_def]
  dsimp only
  split
  · next rest =>
    refine ((leaves_readLiteral rest).bind fun key afterKey _ endsKey => ?_).mono
      (List.suffix_cons _ _)
    have insideKey := (skipSpace_suffix afterKey).trans endsKey
    dsimp only
    split
    · next afterColon colon =>
      rw [colon] at insideKey
      refine Leaves.mono ?_ ((List.suffix_cons _ _).trans insideKey)
      refine ((readers.value _ _).mono (skipSpace_suffix afterColon)).bind
        fun value afterValue _ endsValue => ?_
      have insideValue := (skipSpace_suffix afterValue).trans endsValue
      dsimp only
      split
      · next after comma =>
        rw [comma] at insideValue
        exact ((readers.members _ _ _).mono (skipSpace_suffix after)).mono
          ((List.suffix_cons _ _).trans insideValue)
      · next after closes =>
        rw [closes] at insideValue
        exact (List.suffix_cons _ _).trans insideValue
      · trivial
    · trivial
  · trivial

theorem readersLeave (steps : Nat) : ReadersLeave steps := by
  induction steps with
  | zero => exact ⟨fun _ _ => trivial, fun _ _ => trivial, fun _ _ _ => trivial⟩
  | succ steps readers =>
      exact ⟨readers.readValue, readers.readItems, readers.readMembers⟩

/-- There is ground in a text for the fault for which it is not read. -/
theorem hasGround_of_readWithin {fault : Fault}
    (failed : readWithin limits text = .error fault) :
    fault.HasGround limits text := by
  have leaves := ((readersLeave (2 * text.length + 1)).value limits
    (skipSpace text)).mono (skipSpace_suffix text)
  rw [readWithin] at failed
  cases read : readValue (2 * text.length + 1) limits (skipSpace text) with
  | error first =>
      rw [read] at failed leaves
      cases failed
      exact leaves
  | ok found =>
      rw [read, ok_bind] at failed
      dsimp only at failed
      split at failed
      · cases failed
      · cases failed
        trivial

end ExportAudit.Json
