import ExportAudit.Text.Utf8

/-!
# Boundaries of characters

The bytes of a text are those of its characters, one after another.  A boundary
is an offset at which bytes fall into those of two texts.  What lies between two
boundaries is again the bytes of a text.
-/

namespace ExportAudit.Text.Utf8

/-! ## Bytes of a text -/

theorem decode?_encode (text : String) : decode? (encode text) = some text := by
  have bytes : (encode text).toByteArray = text.toByteArray := by
    unfold encode
    apply ByteArray.ext
    simp
  unfold decode? String.fromUTF8?
  rw [bytes, dif_pos text.isValidUTF8]
  rfl

@[simp] theorem encode_append (left right : String) :
    encode (left ++ right) = encode left ++ encode right := by
  simp [encode, String.toUTF8_eq_toByteArray]

theorem encode_ofList_cons (first : Char) (rest : List Char) :
    encode (String.ofList (first :: rest)) =
      String.utf8EncodeChar first ++ encode (String.ofList rest) := by
  simp [encode, String.toUTF8_eq_toByteArray, List.utf8Encode]

/-- Different texts have different bytes. -/
theorem encode_inj {left right : String} (same : encode left = encode right) :
    left = right := by
  have decoded := decode?_encode left
  rw [same, decode?_encode] at decoded
  exact (Option.some.inj decoded).symm

/-- A character whose bytes start below 0x80 has no other byte. -/
theorem utf8EncodeChar_of_ascii {character : Char} {byte : UInt8}
    {rest : List UInt8} (starts : String.utf8EncodeChar character = byte :: rest)
    (ascii : byte.toNat < 0x80) : rest = [] := by
  rw [String.utf8EncodeChar] at starts
  split at starts
  · cases starts
    rfl
  · -- the first of several bytes has its highest bit set
    exfalso
    split at starts
    · cases starts
      rw [UInt8.toNat_ofNat'] at ascii
      omega
    · split at starts
      · cases starts
        rw [UInt8.toNat_ofNat'] at ascii
        omega
      · cases starts
        rw [UInt8.toNat_ofNat'] at ascii
        omega

/-! ## Boundaries -/

/-- An offset at which bytes fall into those of two texts. -/
def IsBoundary (bytes : List UInt8) (offset : Nat) : Prop :=
  ∃ before after : String, bytes = encode before ++ encode after ∧
    (encode before).length = offset

namespace IsBoundary

variable {bytes : List UInt8} {offset start stop : Nat}

theorem zero (text : String) : IsBoundary (encode text) 0 :=
  ⟨"", text, rfl, rfl⟩

/-- The bytes of the first characters of a text end at a boundary. -/
theorem take (text : String) (count : Nat) :
    IsBoundary (encode text)
      (encode (String.ofList (text.toList.take count))).length := by
  refine ⟨_, String.ofList (text.toList.drop count), ?_, rfl⟩
  rw [← encode_append, ← String.ofList_append, List.take_append_drop,
    String.ofList_toList]

theorem le_length (boundary : IsBoundary bytes offset) :
    offset ≤ bytes.length := by
  obtain ⟨before, after, rfl, rfl⟩ := boundary
  simp

/-- The bytes after a boundary are those of a text. -/
theorem exists_after (boundary : IsBoundary bytes offset) :
    ∃ text, bytes.drop offset = encode text := by
  obtain ⟨before, after, rfl, rfl⟩ := boundary
  exact ⟨after, List.drop_left⟩

/-- The bytes between two boundaries are those of a text. -/
theorem exists_between (first : IsBoundary bytes start)
    (last : IsBoundary bytes stop) :
    ∃ text, (bytes.drop start).take (stop - start) = encode text := by
  obtain ⟨before, after, rfl, rfl⟩ := first
  obtain ⟨longer, rest, same, rfl⟩ := last
  rw [List.drop_left]
  rw [← encode_append, ← encode_append] at same
  have characters := congrArg String.toList (encode_inj same)
  rw [String.toList_append, String.toList_append,
    List.append_eq_append_iff] at characters
  rcases characters with ⟨middle, grown, split⟩ | ⟨middle, grown, _⟩
  · have grown : longer = before ++ String.ofList middle :=
      String.toList_inj.mp (by simpa using grown)
    have split : after = String.ofList middle ++ rest :=
      String.toList_inj.mp (by simpa using split)
    subst grown split
    refine ⟨String.ofList middle, ?_⟩
    rw [encode_append, encode_append, List.length_append, Nat.add_sub_cancel_left,
      List.take_left]
  · have grown : before = longer ++ String.ofList middle :=
      String.toList_inj.mp (by simpa using grown)
    subst grown
    refine ⟨"", ?_⟩
    rw [encode_append, List.length_append, Nat.sub_add_eq, Nat.sub_self,
      Nat.zero_sub, List.take_zero]
    rfl

/-- A byte below 0x80 that follows a boundary is followed by one. -/
theorem succ {byte : UInt8} {rest : List UInt8}
    (boundary : IsBoundary bytes offset)
    (follows : bytes.drop offset = byte :: rest) (ascii : byte.toNat < 0x80) :
    IsBoundary bytes (offset + 1) := by
  obtain ⟨before, after, rfl, rfl⟩ := boundary
  rw [List.drop_left, ← String.ofList_toList (s := after)] at follows
  cases characters : after.toList with
  | nil =>
      rw [characters] at follows
      cases follows
  | cons first others =>
      rw [characters, encode_ofList_cons] at follows
      cases bytes : String.utf8EncodeChar first with
      | nil => exact absurd bytes (String.utf8EncodeChar_ne_nil)
      | cons head tail =>
          rw [bytes, List.cons_append] at follows
          cases follows
          have single := utf8EncodeChar_of_ascii bytes ascii
          have split : after = String.ofList [first] ++ String.ofList others :=
            String.toList_inj.mp (by simp [characters])
          have one : encode (String.ofList [first]) = [byte] := by
            rw [encode_ofList_cons, bytes, single]
            rfl
          refine ⟨before ++ String.ofList [first], String.ofList others, ?_, ?_⟩
          · rw [split, encode_append, encode_append, List.append_assoc]
          · rw [encode_append, one, List.length_append, List.length_singleton]

end IsBoundary

end ExportAudit.Text.Utf8
