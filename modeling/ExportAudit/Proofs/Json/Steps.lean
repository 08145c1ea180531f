import ExportAudit.Proofs.Json.Faults

/-!
# Steps of reading

Reading a text takes at most two steps for each character and one more, so that
no text is refused for want of steps: more of them give the same value, or the
same fault.
-/

namespace ExportAudit.Json

/-- Where there are steps enough for a text, one more changes nothing. -/
structure StepsSuffice (steps : Nat) : Prop where
  value : ∀ limits (text : List Char), 2 * text.length + 1 ≤ steps →
    readValue (steps + 1) limits text = readValue steps limits text
  items : ∀ limits (text : List Char), 2 * text.length + 2 ≤ steps →
    readItems (steps + 1) limits text = readItems steps limits text
  members : ∀ limits known (text : List Char), 2 * text.length + 2 ≤ steps →
    readMembers (steps + 1) limits known text = readMembers steps limits known text

variable {limits : Limits} {text : List Char} {α β : Type} {steps : Nat}

/-- Two readings that go on alike from what is left of a text are the same. -/
theorem Leaves.bind_congr {result : Except Fault (α × List Char)}
    {next other : α × List Char → Except Fault (β × List Char)}
    (leaves : Leaves limits text result)
    (same : ∀ value rest, rest <:+ text → next (value, rest) = other (value, rest)) :
    (result >>= next) = (result >>= other) := by
  cases result with
  | ok found => exact same found.1 found.2 leaves
  | error fault => rfl

theorem length_skipSpace_le (text : List Char) :
    (skipSpace text).length ≤ text.length :=
  (skipSpace_suffix text).length_le

/-- Behind a mark less is left than before it. -/
theorem length_lt_of_skipSpace {rest after : List Char} {mark : Char}
    (starts : skipSpace rest = mark :: after) (ends : rest <:+ text) :
    after.length < text.length := by
  have left := length_skipSpace_le rest
  rw [starts, List.length_cons] at left
  exact Nat.lt_of_lt_of_le left ends.length_le

theorem StepsSuffice.readValue (suffice : StepsSuffice steps) (limits : Limits)
    (text : List Char) (enough : 2 * text.length + 1 ≤ steps + 1) :
    readValue (steps + 2) limits text = readValue (steps + 1) limits text := by
  have inside : ∀ {first : Char} {rest : List Char}, text = first :: rest →
      2 * (skipSpace rest).length + 2 ≤ steps := by
    rintro first rest rfl
    have := length_skipSpace_le rest
    rw [List.length_cons] at enough
    omega
  rw [Json.readValue.eq_def, Json.readValue.eq_def (steps + 1)]
  dsimp only
  split
  · rfl
  · next rest =>
    cases limits with
    | mk nesting digits =>
    cases nesting with
    | zero => rfl
    | succ nesting =>
        dsimp only
        split
        · rfl
        · rw [suffice.items _ _ (inside rfl)]
  · next rest =>
    cases limits with
    | mk nesting digits =>
    cases nesting with
    | zero => rfl
    | succ nesting =>
        dsimp only
        split
        · rfl
        · rw [suffice.members _ _ _ (inside rfl)]
  · rfl

theorem StepsSuffice.readItems (suffice : StepsSuffice steps) (limits : Limits)
    (text : List Char) (enough : 2 * text.length + 2 ≤ steps + 1) :
    readItems (steps + 2) limits text = readItems (steps + 1) limits text := by
  rw [Json.readItems, Json.readItems, suffice.value _ _ (by omega)]
  refine ((readersLeave steps).value limits text).bind_congr fun value rest ends => ?_
  dsimp only
  split
  · next after comma =>
    have shorter := length_lt_of_skipSpace comma ends
    have left := length_skipSpace_le after
    rw [suffice.items _ _ (by omega)]
  · rfl
  · rfl

theorem StepsSuffice.readMembers (suffice : StepsSuffice steps) (limits : Limits)
    (known : List (WideText × Json)) (text : List Char)
    (enough : 2 * text.length + 2 ≤ steps + 1) :
    readMembers (steps + 2) limits known text =
      readMembers (steps + 1) limits known text := by
  rw [Json.readMembers.eq_def, Json.readMembers.eq_def (steps + 1)]
  dsimp only
  split
  · next rest =>
    rw [List.length_cons] at enough
    refine (@leaves_readLiteral limits rest).bind_congr fun key afterKey endsKey => ?_
    dsimp only
    split
    · next afterColon colon =>
      have shorter := length_lt_of_skipSpace colon endsKey
      have left := length_skipSpace_le afterColon
      rw [suffice.value _ _ (by omega)]
      refine ((readersLeave steps).value limits _).bind_congr
        fun value afterValue endsValue => ?_
      dsimp only
      split
      · next after comma =>
        have fewer := length_lt_of_skipSpace comma endsValue
        have last := length_skipSpace_le after
        exact suffice.members _ _ _ (by omega)
      · rfl
      · rfl
    · rfl
  · rfl

theorem stepsSuffice (steps : Nat) : StepsSuffice steps := by
  induction steps with
  | zero =>
      exact ⟨fun _ _ enough => by omega, fun _ _ enough => by omega,
        fun _ _ _ enough => by omega⟩
  | succ steps suffice =>
      exact ⟨suffice.readValue, suffice.readItems, suffice.readMembers⟩

/-- As many steps as a text needs, or more, read it alike. -/
theorem readValue_of_enough (enough : 2 * text.length + 1 ≤ steps) :
    readValue steps limits text = readValue (2 * text.length + 1) limits text := by
  induction steps, enough using Nat.le_induction with
  | base => rfl
  | succ steps enough ih => rw [(stepsSuffice steps).value limits text enough, ih]

end ExportAudit.Json
