import Mathlib.Data.List.Forall2
import Mathlib.Data.List.Nodup
import ExportAudit.Proofs.Json.Printing
import ExportAudit.Proofs.Json.Stripping
import ExportAudit.Report

/-!
# Reports as records

The records of a report are read again from the text that is printed, and the
diagnostics are found again in the records.  So different diagnostics are never
printed alike.
-/

namespace ExportAudit

open Json

/-! ## Tokens of records -/

/-- The token of a member. -/
def Scalar.token : Scalar → Token
  | .text value => literalToken value
  | .integer value => integerToken value

theorem Scalar.token_text (member : Scalar) : member.token.text = member.print := by
  cases member <;> rfl

/-- How many digits a member takes. -/
def Scalar.digits : Scalar → Nat
  | .text _ => 0
  | .integer value => digitCount value

/-- Items with commas between them, up to a closing mark. -/
def itemTokens (closing : Mark) : List (List Token) → List Token
  | [] => [.mark closing]
  | [item] => item ++ [.mark closing]
  | item :: others => item ++ .mark .comma :: itemTokens closing others

/-- The tokens of a named member. -/
def memberTokens (entry : String × Scalar) : List Token :=
  [literalToken entry.1, .mark .colon, entry.2.token]

/-- The tokens of a record. -/
def Record.tokens (record : Record) : List Token :=
  .mark .openObject :: itemTokens .closeObject (record.map memberTokens)

/-! ## Printed tokens -/

/-- A text is that of some tokens, before anything that ends a word. -/
def Prints (tokens : List Token) (text : List Char) : Prop :=
  ∀ others rest, Ends rest → Spells Blank others rest →
    Spells Blank (tokens ++ others) (text ++ rest)

theorem spells_blanks {blanks rest : List Char} {tokens : List Token}
    (space : ∀ character ∈ blanks, isSpace character = true)
    (spells : Spells Blank tokens rest) : Spells Blank tokens (blanks ++ rest) := by
  induction blanks with
  | nil => exact spells
  | cons first blanks ih =>
      rw [List.forall_mem_cons] at space
      exact @Spells.separator _ [first] _ _ (.single space.1) (ih space.2)

theorem isSpace_margin (size : Nat) :
    ∀ character ∈ '\n' :: List.replicate size ' ', isSpace character = true := by
  rw [List.forall_mem_cons]
  refine ⟨rfl, fun character member => ?_⟩
  rw [List.eq_of_mem_replicate member]
  rfl

theorem prints_member (entry : String × Scalar) :
    Prints (memberTokens entry)
      (Scalar.literal entry.1 ++ [':', ' '] ++ entry.2.print) := by
  intro others rest ends spells
  have value : Spells Blank (entry.2.token :: others) (entry.2.print ++ rest) :=
    entry.2.token_text ▸ .token (fun _ => ends) spells
  have space : Blank [' '] := .single rfl
  have colon := (Spells.separator space value).mark .colon
  have key := @Spells.token _ (literalToken entry.1) _ _ nofun colon
  rw [List.append_assoc, List.append_assoc]
  exact key

theorem prints_items {closing : Mark} {items : List (List Token)}
    {texts : List (List Char)} (size indentation : Nat)
    (printed : List.Forall₂ Prints items texts) (nonempty : texts ≠ []) :
    Prints (itemTokens closing items)
      (List.intercalate (',' :: '\n' :: List.replicate size ' ') texts ++
        ('\n' :: List.replicate indentation ' ' ++ [closing.character])) := by
  intro others rest ends spells
  induction printed with
  | nil => exact absurd rfl nonempty
  | @cons item text items texts first printed ih =>
      cases printed with
      | nil =>
          have close := spells_blanks (isSpace_margin indentation)
            (spells.mark closing)
          have whole := first _ _ (ends_cons.mpr (by decide)) close
          rw [List.intercalate_singleton]
          simpa [itemTokens] using whole
      | @cons second secondText items texts _ _ =>
          have later := spells_blanks (isSpace_margin size)
            (ih (List.cons_ne_nil _ _))
          have whole := first _ _ (ends_cons.mpr (by decide)) (later.mark .comma)
          rw [List.intercalate_cons_cons]
          simpa [itemTokens, Mark.character] using whole

theorem prints_block {opening closing : Mark} {items : List (List Token)}
    {texts : List (List Char)} (indentation : Nat)
    (printed : List.Forall₂ Prints items texts) :
    Prints (.mark opening :: itemTokens closing items)
      (Record.printBlock opening.character closing.character indentation
        texts) := by
  intro others rest ends spells
  unfold Record.printBlock
  cases texts with
  | nil =>
      cases printed
      exact (spells.mark closing).mark opening
  | cons text texts =>
      have inside := @prints_items closing _ _ (indentation + 2) indentation
        printed (List.cons_ne_nil _ _) others rest ends spells
      have whole := (spells_blanks (isSpace_margin (indentation + 2)) inside).mark
        opening
      simpa using whole

theorem prints_record (record : Record) : Prints record.tokens record.print := by
  apply prints_block
  rw [List.forall₂_map_left_iff, List.forall₂_map_right_iff]
  exact List.forall₂_same.mpr fun entry _ => prints_member entry

/-- The text of records consists of their tokens. -/
theorem spells_printAll (records : List Record) :
    Spells Blank
      (.mark .openArray :: itemTokens .closeArray (records.map Record.tokens))
      (Record.printAll records ++ ['\n']) := by
  have printed : Prints
      (.mark .openArray :: itemTokens .closeArray (records.map Record.tokens))
      (Record.printAll records) := by
    apply prints_block
    rw [List.forall₂_map_left_iff, List.forall₂_map_right_iff]
    exact List.forall₂_same.mpr fun record _ => prints_record record
  have lineBreak : Spells Blank [] ['\n'] :=
    @Spells.separator _ ['\n'] _ _ (.single rfl) .done
  have whole := printed [] ['\n'] (ends_cons.mpr (by decide)) lineBreak
  rwa [List.append_nil] at whole

/-! ## What printed tokens denote -/

theorem Scalar.denotes {member : Scalar} {limits : Limits}
    (few : member.digits ≤ limits.digits) :
    Denotes limits [member.token] (.value member.toJson) := by
  cases member with
  | text value =>
      exact @Denotes.literal limits _ _ (isBody_printed value)
        (readLiteral_printed value [])
  | integer value => exact .word (readAtom_printed few)

theorem denotes_items {limits : Limits} {items : List (List Token)}
    {values : List Json} (nonempty : values ≠ [])
    (each : List.Forall₂ (fun tokens value => Denotes limits tokens (.value value))
      items values) :
    Denotes limits (itemTokens .closeArray items) (.items values) := by
  induction each with
  | nil => exact absurd rfl nonempty
  | cons first others ih =>
      cases others with
      | nil => exact .lastItem first
      | cons => exact .item first (ih (List.cons_ne_nil _ _))

theorem denotes_array {nesting digits : Nat} {items : List (List Token)}
    {values : List Json}
    (each : List.Forall₂
      (fun tokens value => Denotes ⟨nesting, digits⟩ tokens (.value value))
      items values) :
    Denotes ⟨nesting + 1, digits⟩ (.mark .openArray :: itemTokens .closeArray items)
      (.value (.array values)) := by
  cases values with
  | nil =>
      cases each
      exact .emptyArray
  | cons => exact .array (denotes_items (List.cons_ne_nil _ _) each)

theorem denotes_members {limits : Limits} {record : Record}
    (nonempty : record ≠ [])
    (few : ∀ entry ∈ record, entry.2.digits ≤ limits.digits)
    (known : List (WideText × Json)) :
    Denotes limits (itemTokens .closeObject (record.map memberTokens))
      (.members known (record.foldl
        (fun known entry => Association.insert entry.1 entry.2.toJson known)
        known)) := by
  induction record generalizing known with
  | nil => exact absurd rfl nonempty
  | cons entry record ih =>
      rw [List.forall_mem_cons] at few
      have key := readLiteral_printed entry.1 []
      have value := Scalar.denotes few.1
      cases record with
      | nil =>
          exact @Denotes.lastMember limits _ _ (isBody_printed _) _ _ known
            key value
      | cons second record =>
          exact .member key value (ih (List.cons_ne_nil _ _) few.2 _)

/-! ## Members under different names -/

theorem Association.insert_eq_append {κ ν : Type} [DecidableEq κ] {key : κ}
    (value : ν) {entries : List (κ × ν)} (fresh : key ∉ entries.map Prod.fst) :
    insert key value entries = entries ++ [(key, value)] := by
  induction entries with
  | nil => rfl
  | cons entry entries ih =>
      rw [List.map_cons, List.mem_cons, not_or] at fresh
      rw [insert, if_neg fun same => fresh.1 same.symm, ih fresh.2]
      rfl

/-- The members of a record whose names differ stand as they are listed. -/
theorem Record.foldl_insert {record : Record} {known : List (WideText × Json)}
    (different : (known.map Prod.fst ++
      (record.map Prod.fst).map WideText.ofString).Nodup) :
    record.foldl
        (fun known entry => Association.insert (.ofString entry.1)
          entry.2.toJson known) known =
      known ++ record.map fun entry => (.ofString entry.1, entry.2.toJson) := by
  induction record generalizing known with
  | nil => exact (List.append_nil known).symm
  | cons entry record ih =>
      have fresh : WideText.ofString entry.1 ∉ known.map Prod.fst := fun listed =>
        (List.nodup_append.mp different).2.2 _ listed _ List.mem_cons_self rfl
      rw [List.foldl_cons, Association.insert_eq_append _ fresh, ih, List.map_cons,
        List.append_assoc]
      · rfl
      · simpa using different

theorem Record.denotes {record : Record} {nesting digits : Nat}
    (different : (record.map Prod.fst).Nodup)
    (few : ∀ entry ∈ record, entry.2.digits ≤ digits) :
    Denotes ⟨nesting + 1, digits⟩ record.tokens (.value record.toJson) := by
  have members := @Record.foldl_insert record []
    (List.Nodup.map (fun _ _ => WideText.ofString_inj.mp) different)
  by_cases empty : record = []
  · subst empty
    exact .emptyObject
  · have inside := @denotes_members ⟨nesting, digits⟩ record empty few []
    rw [members] at inside
    exact .object inside

theorem Diagnostic.nodup_record (diagnostic : Diagnostic) :
    (diagnostic.record.map Prod.fst).Nodup := by
  cases file : diagnostic.file <;> cases line : diagnostic.line <;>
    simp [Diagnostic.record, file, line]

theorem Diagnostic.digits_le {digits : Nat} (diagnostic : Diagnostic)
    (few : ∀ line ∈ diagnostic.line, digitCount line ≤ digits) :
    ∀ entry ∈ diagnostic.record, entry.2.digits ≤ digits := by
  intro entry listed
  simp only [record, List.mem_append, List.mem_cons, List.not_mem_nil, or_false,
    Option.mem_toList, Option.map_eq_some_iff] at listed
  rcases listed with ((rfl | rfl) | ⟨file, -, rfl⟩) | ⟨line, isLine, rfl⟩
  · exact Nat.zero_le _
  · exact Nat.zero_le _
  · exact Nat.zero_le _
  · exact few line isLine

/-- The records of some diagnostics are read again, if no line has more digits
than are read. -/
theorem readWithin_renderRecords {diagnostics : List Diagnostic}
    {nesting digits : Nat}
    (few : ∀ diagnostic ∈ diagnostics, ∀ line ∈ diagnostic.line,
      digitCount line ≤ digits) :
    readWithin ⟨nesting + 2, digits⟩ (renderRecords diagnostics) =
      .ok (.array (diagnostics.map (·.record.toJson))) := by
  refine readWithin_eq_ok.mpr ⟨_, spells_printAll _, denotes_array ?_⟩
  rw [List.map_map, List.forall₂_map_left_iff, List.forall₂_map_right_iff]
  refine List.forall₂_same.mpr fun diagnostic member => ?_
  exact Record.denotes diagnostic.nodup_record
    (diagnostic.digits_le (few diagnostic member))

/-! ## Diagnostics in records -/

/-- The text that a value is, if it has no lone surrogates. -/
def Json.text? : Json → Option String
  | .string value => value.text?
  | _ => none

/-- The integer that a value is. -/
def Json.integer? : Json → Option Int
  | .integer value => some value
  | _ => none

/-- A member that may be absent. -/
def optionalMember {α : Type} (read : Json → Option α) : Option Json → Option (Option α)
  | none => some none
  | some value => (read value).map some

/-- The diagnostic that a record is about. -/
def Diagnostic.ofJson? : Json → Option Diagnostic
  | .object members => do
      let level ← (← Json.member? "level" members).text?
      let level ← Level.ofLabel? level
      let message ← (← Json.member? "message" members).text?
      let file ← optionalMember Json.text? (Json.member? "file" members)
      let line ← optionalMember Json.integer? (Json.member? "line" members)
      return ⟨level, message, file, line⟩
  | _ => none

theorem Diagnostic.ofJson?_toJson (diagnostic : Diagnostic) :
    ofJson? diagnostic.record.toJson = some diagnostic := by
  obtain ⟨level, message, file, line⟩ := diagnostic
  have label : Level.ofLabel? level.label = some level := by
    cases level <;> rfl
  cases file <;> cases line <;>
    simp [record, Record.toJson, Scalar.toJson, ofJson?, Json.member?,
      Association.find?, label, Json.text?, Json.integer?, optionalMember]

theorem mapM_ofJson?_toJson (diagnostics : List Diagnostic) :
    (diagnostics.map (·.record.toJson)).mapM Diagnostic.ofJson? =
      some diagnostics := by
  induction diagnostics with
  | nil => rfl
  | cons first diagnostics ih =>
      rw [List.map_cons, List.mapM_cons, Diagnostic.ofJson?_toJson, ih]
      rfl

/-- There is a number of digits that every line of some diagnostics has at most. -/
theorem exists_digits (diagnostics : List Diagnostic) :
    ∃ digits, ∀ diagnostic ∈ diagnostics, ∀ line ∈ diagnostic.line,
      digitCount line ≤ digits := by
  induction diagnostics with
  | nil => exact ⟨0, by simp⟩
  | cons first diagnostics ih =>
      obtain ⟨digits, bound⟩ := ih
      refine ⟨max digits ((first.line.map digitCount).getD 0), ?_⟩
      rw [List.forall_mem_cons]
      constructor
      · intro line isLine
        rw [isLine]
        exact Nat.le_max_right _ _
      · intro diagnostic member line isLine
        exact Nat.le_trans (bound diagnostic member line isLine)
          (Nat.le_max_left _ _)

/-- The records of a report are read, in order, by the reader of descriptions, if
no line has more digits than it takes of a number; each diagnostic is found again
in its record; and other diagnostics are printed otherwise. -/
theorem renderRecords_lossless (diagnostics : List Diagnostic) :
    ((∀ diagnostic ∈ diagnostics, ∀ line ∈ diagnostic.line,
        digitCount line ≤ Text.digitLimit) →
      Relaxed.read (renderRecords diagnostics) =
        .ok (.array (diagnostics.map (·.record.toJson)))) ∧
    (diagnostics.map (·.record.toJson)).mapM Diagnostic.ofJson? =
      some diagnostics ∧
    ∀ others, renderRecords diagnostics = renderRecords others →
      diagnostics = others := by
  refine ⟨fun few => ?_, mapM_ofJson?_toJson diagnostics, fun others same => ?_⟩
  · exact (Relaxed.read_plain (readWithin_renderRecords few)).2
  · obtain ⟨digits, few⟩ := exists_digits (diagnostics ++ others)
    rw [List.forall_mem_append] at few
    have left := @readWithin_renderRecords diagnostics 0 digits few.1
    have right := @readWithin_renderRecords others 0 digits few.2
    rw [same, right] at left
    have found := mapM_ofJson?_toJson diagnostics
    injection left with left
    injection left with left
    rw [← left, mapM_ofJson?_toJson] at found
    exact (Option.some.inj found).symm

/-- A finding whose texts look like comments, escapes and trailing commas. -/
def misleading : Diagnostic :=
  ⟨.warn, "/* \"a\\\", ] // \x01é", some "a,\x7d.ts", some 12⟩

/-- What looks like a comment or a trailing comma in a message is kept. -/
theorem renderRecords_misleading :
    Relaxed.read (renderRecords [misleading]) =
      .ok (.array [.object [("level", .string "warn"),
        ("message", .string "/* \"a\\\", ] // \x01é"),
        ("file", .string "a,\x7d.ts"), ("line", .integer 12)]]) := by
  refine (renderRecords_lossless [misleading]).1 ?_
  simp only [List.mem_singleton, forall_eq]
  decide

end ExportAudit
