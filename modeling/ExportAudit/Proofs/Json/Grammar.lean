import Mathlib.Data.List.Chain
import Mathlib.Data.List.DropRight
import ExportAudit.Proofs.Json.Lexemes

/-!
# The grammar of JSON

What tokens denote, apart from any reader.  The reader takes exactly the texts
whose tokens denote a value, and gives that value, however blanks separate the
tokens.
-/

namespace ExportAudit.Json

/-- What some tokens can denote: a value, the items of an array up to its
closing bracket, or the members of an object up to its closing brace, added to
those known before. -/
inductive Phrase where
  | value (value : Json)
  | items (values : List Json)
  | members (known result : List (WideText × Json))

/-- Some tokens denote a phrase within limits. -/
inductive Denotes : Limits → List Token → Phrase → Prop where
  | literal {limits : Limits} {body : List Char} {value : WideText}
      {closed : IsBody body}
      (read : readLiteral (body ++ ['"']) = some (value, [])) :
      Denotes limits [.literal body closed] (.value (.string value))
  | word {limits : Limits} {characters : List Char} {value : Json}
      {nonempty : characters ≠ []}
      {plain : ∀ character ∈ characters, isWordCharacter character = true}
      (read : readAtom limits.digits characters = .ok (value, [])) :
      Denotes limits [.word characters nonempty plain] (.value value)
  | emptyArray {nesting digits : Nat} :
      Denotes ⟨nesting + 1, digits⟩ [.mark .openArray, .mark .closeArray]
        (.value (.array []))
  | array {nesting digits : Nat} {tokens : List Token} {values : List Json}
      (items : Denotes ⟨nesting, digits⟩ tokens (.items values)) :
      Denotes ⟨nesting + 1, digits⟩ (.mark .openArray :: tokens)
        (.value (.array values))
  | emptyObject {nesting digits : Nat} :
      Denotes ⟨nesting + 1, digits⟩ [.mark .openObject, .mark .closeObject]
        (.value (.object []))
  | object {nesting digits : Nat} {tokens : List Token}
      {result : List (WideText × Json)}
      (members : Denotes ⟨nesting, digits⟩ tokens (.members [] result)) :
      Denotes ⟨nesting + 1, digits⟩ (.mark .openObject :: tokens)
        (.value (.object result))
  | lastItem {limits : Limits} {tokens : List Token} {value : Json}
      (item : Denotes limits tokens (.value value)) :
      Denotes limits (tokens ++ [.mark .closeArray]) (.items [value])
  | item {limits : Limits} {tokens rest : List Token} {value : Json}
      {values : List Json} (item : Denotes limits tokens (.value value))
      (others : Denotes limits rest (.items values)) :
      Denotes limits (tokens ++ .mark .comma :: rest) (.items (value :: values))
  | lastMember {limits : Limits} {body : List Char} {key : WideText}
      {closed : IsBody body} {tokens : List Token} {value : Json}
      {known : List (WideText × Json)}
      (read : readLiteral (body ++ ['"']) = some (key, []))
      (member : Denotes limits tokens (.value value)) :
      Denotes limits
        (.literal body closed :: .mark .colon ::
          (tokens ++ [.mark .closeObject]))
        (.members known (Association.insert key value known))
  | member {limits : Limits} {body : List Char} {key : WideText}
      {closed : IsBody body} {tokens rest : List Token} {value : Json}
      {known result : List (WideText × Json)}
      (read : readLiteral (body ++ ['"']) = some (key, []))
      (member : Denotes limits tokens (.value value))
      (others : Denotes limits rest
        (.members (Association.insert key value known) result)) :
      Denotes limits
        (.literal body closed :: .mark .colon ::
          (tokens ++ .mark .comma :: rest))
        (.members known result)

/-- The reader of a kind of phrase takes one from the front of a text. -/
def Reads (steps : Nat) (limits : Limits) (text : List Char) :
    Phrase → List Char → Prop
  | .value value, rest => readValue steps limits text = .ok (value, rest)
  | .items values, rest => readItems steps limits text = .ok (values, rest)
  | .members known result, rest =>
      readMembers steps limits known text = .ok (result, rest)

/-! ## What is read is denoted -/

theorem Spells.mark {separates : List Char → Prop} {tokens : List Token}
    {rest : List Char} (kind : Mark) (spells : Spells separates tokens rest) :
    Spells separates (.mark kind :: tokens) (kind.character :: rest) :=
  @Spells.token separates (.mark kind) rest tokens nofun spells

theorem Spells.literal {separates : List Char → Prop} {tokens : List Token}
    {body rest : List Char} (closed : IsBody body)
    (spells : Spells separates tokens rest) :
    Spells separates (.literal body closed :: tokens)
      ('"' :: (body ++ '"' :: rest)) := by
  have literal := @Spells.token separates (.literal body closed) rest tokens
    nofun spells
  simpa [Token.text] using literal

theorem ends_of_skipSpace {text : List Char} (ends : Ends (skipSpace text)) :
    Ends text := by
  cases text with
  | nil => exact ends_nil
  | cons character rest =>
      cases space : isSpace character with
      | true => exact ends_cons.mpr (isWordCharacter_of_space space)
      | false => simpa [skipSpace, space] using ends

/-- A text that a mark starts once its blanks are skipped. -/
theorem Spells.of_mark {tokens : List Token} {text rest : List Char}
    (kind : Mark) (starts : skipSpace text = kind.character :: rest)
    (spells : Spells Blank tokens rest) :
    Ends text ∧ Spells Blank (.mark kind :: tokens) text := by
  constructor
  · refine ends_of_skipSpace ?_
    rw [starts]
    exact ends_cons.mpr (isWordCharacter_mark kind)
  · refine Spells.of_skipSpace ?_
    rw [starts]
    exact spells.mark kind

/-- Every reading in some steps takes the tokens of what it gives. -/
def Takes (steps : Nat) : Prop :=
  ∀ {limits : Limits} {text rest : List Char} {phrase : Phrase}
    {tokens : List Token}, Reads steps limits text phrase rest → Ends rest →
      Spells Blank tokens rest → ∃ taken, Denotes limits taken phrase ∧
        Spells Blank (taken ++ tokens) text

/-- A word is one token. -/
theorem exists_denotes_word {limits : Limits} {text rest : List Char}
    {value : Json} {tokens : List Token}
    (read : readAtom limits.digits text = .ok (value, rest))
    (ends : Ends rest) (spells : Spells Blank tokens rest) :
    ∃ taken, Denotes limits taken (.value value) ∧
      Spells Blank (taken ++ tokens) text := by
  obtain ⟨characters, rfl, nonempty, plain, exact⟩ := readAtom_eq_ok read ends
  have alone := exact [] ends_nil
  rw [List.append_nil] at alone
  exact ⟨[.word characters nonempty plain], .word alone,
    .token (fun _ => ends) spells⟩

theorem exists_denotes_literal {text rest : List Char} {key : WideText}
    {tokens : List Token} (read : readLiteral text = some (key, rest))
    (spells : Spells Blank tokens rest) :
    ∃ (body : List Char) (closed : IsBody body),
      readLiteral (body ++ ['"']) = some (key, []) ∧
      Spells Blank (.literal body closed :: tokens) ('"' :: text) := by
  obtain ⟨body, closed, rfl, exact⟩ := readLiteral_eq_some read
  exact ⟨body, closed, exact [], spells.literal closed⟩

theorem Takes.value {steps : Nat} (takes : Takes steps) {limits : Limits}
    {text rest : List Char} {value : Json} {tokens : List Token}
    (read : readValue (steps + 1) limits text = .ok (value, rest))
    (ends : Ends rest) (spells : Spells Blank tokens rest) :
    ∃ taken, Denotes limits taken (.value value) ∧
      Spells Blank (taken ++ tokens) text := by
  unfold readValue at read
  split at read
  · obtain ⟨⟨key, after⟩, found, made⟩ := bind_eq_ok.mp read
    cases made
    obtain ⟨body, closed, literal, starts⟩ :=
      exists_denotes_literal (orMalformed_eq_ok.mp found) spells
    exact ⟨[.literal body closed], .literal literal, starts⟩
  · cases limits with
    | mk nesting digits =>
    cases nesting with
    | zero => cases read
    | succ nesting =>
        dsimp only at read
        split at read
        · next after starts =>
          cases read
          refine ⟨_, .emptyArray, Spells.mark .openArray ?_⟩
          exact (Spells.of_mark .closeArray starts spells).2
        · obtain ⟨⟨values, after⟩, items, made⟩ := bind_eq_ok.mp read
          cases made
          obtain ⟨taken, denoted, others⟩ :=
            @takes _ _ _ (.items values) _ items ends spells
          exact ⟨_, .array denoted, Spells.mark .openArray (.of_skipSpace others)⟩
  · cases limits with
    | mk nesting digits =>
    cases nesting with
    | zero => cases read
    | succ nesting =>
        dsimp only at read
        split at read
        · next after starts =>
          cases read
          refine ⟨_, .emptyObject, Spells.mark .openObject ?_⟩
          exact (Spells.of_mark .closeObject starts spells).2
        · obtain ⟨⟨result, after⟩, members, made⟩ := bind_eq_ok.mp read
          cases made
          obtain ⟨taken, denoted, others⟩ :=
            @takes _ _ _ (.members [] result) _ members ends spells
          exact ⟨_, .object denoted, Spells.mark .openObject (.of_skipSpace others)⟩
  · exact exists_denotes_word read ends spells

theorem Takes.items {steps : Nat} (takes : Takes steps) {limits : Limits}
    {text rest : List Char} {values : List Json} {tokens : List Token}
    (read : readItems (steps + 1) limits text = .ok (values, rest))
    (ends : Ends rest) (spells : Spells Blank tokens rest) :
    ∃ taken, Denotes limits taken (.items values) ∧
      Spells Blank (taken ++ tokens) text := by
  unfold readItems at read
  obtain ⟨⟨value, afterValue⟩, item, read⟩ := bind_eq_ok.mp read
  dsimp only at read
  split at read
  · next after comma =>
    obtain ⟨⟨others, afterOthers⟩, later, made⟩ := bind_eq_ok.mp read
    cases made
    obtain ⟨otherTokens, otherDenoted, otherSpells⟩ :=
      @takes _ _ _ (.items others) _ later ends spells
    obtain ⟨valueEnds, commaSpells⟩ :=
      Spells.of_mark .comma comma (.of_skipSpace otherSpells)
    obtain ⟨taken, denoted, starts⟩ :=
      @takes _ _ _ (.value value) _ item valueEnds commaSpells
    exact ⟨_, .item denoted otherDenoted, by simpa using starts⟩
  · next after closing =>
    cases read
    obtain ⟨valueEnds, closeSpells⟩ := Spells.of_mark .closeArray closing spells
    obtain ⟨taken, denoted, starts⟩ :=
      @takes _ _ _ (.value value) _ item valueEnds closeSpells
    exact ⟨_, .lastItem denoted, by simpa using starts⟩
  · cases read

theorem Takes.members {steps : Nat} (takes : Takes steps) {limits : Limits}
    {text rest : List Char} {known result : List (WideText × Json)}
    {tokens : List Token}
    (read : readMembers (steps + 1) limits known text = .ok (result, rest))
    (ends : Ends rest) (spells : Spells Blank tokens rest) :
    ∃ taken, Denotes limits taken (.members known result) ∧
      Spells Blank (taken ++ tokens) text := by
  unfold readMembers at read
  split at read
  · obtain ⟨⟨key, afterKey⟩, found, read⟩ := bind_eq_ok.mp read
    have foundKey := orMalformed_eq_ok.mp found
    dsimp only at read
    split at read
    · next afterColon colon =>
      obtain ⟨⟨value, afterValue⟩, member, read⟩ := bind_eq_ok.mp read
      dsimp only at read
      split at read
      · next after comma =>
        obtain ⟨otherTokens, otherDenoted, otherSpells⟩ :=
          @takes _ _ _ (.members _ result) _ read ends spells
        obtain ⟨valueEnds, commaSpells⟩ :=
          Spells.of_mark .comma comma (.of_skipSpace otherSpells)
        obtain ⟨taken, denoted, valueSpells⟩ :=
          @takes _ _ _ (.value value) _ member valueEnds commaSpells
        have colonSpells :=
          (Spells.of_mark .colon colon (.of_skipSpace valueSpells)).2
        obtain ⟨body, closed, literal, starts⟩ :=
          exists_denotes_literal foundKey colonSpells
        exact ⟨_, .member literal denoted otherDenoted, by simpa using starts⟩
      · next after closing =>
        cases read
        obtain ⟨valueEnds, closeSpells⟩ :=
          Spells.of_mark .closeObject closing spells
        obtain ⟨taken, denoted, valueSpells⟩ :=
          @takes _ _ _ (.value value) _ member valueEnds closeSpells
        have colonSpells :=
          (Spells.of_mark .colon colon (.of_skipSpace valueSpells)).2
        obtain ⟨body, closed, literal, starts⟩ :=
          exists_denotes_literal foundKey colonSpells
        exact ⟨_, .lastMember literal denoted, by simpa using starts⟩
      · cases read
    · cases read
  · cases read

theorem takes (steps : Nat) : Takes steps := by
  induction steps with
  | zero =>
      intro limits text rest phrase tokens read
      cases phrase <;> cases read
  | succ steps ih =>
      intro limits text rest phrase tokens read ends spells
      cases phrase with
      | value value => exact ih.value read ends spells
      | items values => exact ih.items read ends spells
      | members known result => exact ih.members read ends spells

/-! ## What is denoted is read -/

/-- No phrase starts with a closing mark. -/
theorem Denotes.exists_cons {limits : Limits} {tokens : List Token}
    {phrase : Phrase} (denotes : Denotes limits tokens phrase) :
    ∃ token others, tokens = token :: others ∧ ¬ token.Closes := by
  induction denotes with
  | literal | word | emptyArray | array | emptyObject | object | lastMember
  | member => exact ⟨_, _, rfl, by simp [Token.Closes]⟩
  | lastItem _ ih =>
      obtain ⟨token, others, rfl, opens⟩ := ih
      exact ⟨_, _, rfl, opens⟩
  | item _ _ ih _ =>
      obtain ⟨token, others, rfl, opens⟩ := ih
      exact ⟨_, _, rfl, opens⟩

theorem skipSpace_skipSpace (text : List Char) :
    skipSpace (skipSpace text) = skipSpace text :=
  List.dropWhile_idempotent isSpace text

theorem Spells.to_skipSpace {tokens : List Token} {text : List Char}
    (spells : Spells Blank tokens text) :
    Spells Blank tokens (skipSpace text) := by
  cases tokens with
  | nil =>
      rw [spells.skipSpace_eq_nil]
      exact .done
  | cons token others =>
      obtain ⟨rest, starts, ends, later⟩ := spells.skipSpace_eq
      rw [starts]
      exact .token ends later

theorem Spells.exists_mark {kind : Mark} {tokens : List Token}
    {text : List Char} (spells : Spells Blank (.mark kind :: tokens) text) :
    ∃ rest, skipSpace text = kind.character :: rest ∧
      Spells Blank tokens rest := by
  obtain ⟨rest, starts, _, others⟩ := spells.skipSpace_eq
  exact ⟨rest, starts, others⟩

theorem Spells.exists_literal {body : List Char} {closed : IsBody body}
    {tokens : List Token} {text : List Char}
    (spells : Spells Blank (.literal body closed :: tokens) text) :
    ∃ rest, skipSpace text = '"' :: (body ++ '"' :: rest) ∧
      Spells Blank tokens rest := by
  obtain ⟨rest, starts, _, others⟩ := spells.skipSpace_eq
  exact ⟨rest, by simpa [Token.text] using starts, others⟩

/-- A phrase does not start with what closes an array or an object. -/
theorem Denotes.skipSpace_ne {limits : Limits} {taken tokens : List Token}
    {phrase : Phrase} {text : List Char} {kind : Mark}
    (denotes : Denotes limits taken phrase)
    (spells : Spells Blank (taken ++ tokens) text)
    (closes : (Token.mark kind).Closes) (rest : List Char) :
    skipSpace text ≠ kind.character :: rest := by
  intro same
  obtain ⟨token, others, rfl, opens⟩ := denotes.exists_cons
  obtain ⟨after, starts, ends, _⟩ := spells.skipSpace_eq
  have equal := @Token.unique token (.mark kind) _ _ ends nofun
    (starts.symm.trans same)
  rw [equal.1] at opens
  exact opens closes

theorem Denotes.exists_succ {limits : Limits} {taken : List Token}
    {phrase : Phrase} {steps : Nat} (denotes : Denotes limits taken phrase)
    (enough : taken.length ≤ steps) : ∃ fewer, steps = fewer + 1 := by
  obtain ⟨token, others, rfl, _⟩ := denotes.exists_cons
  rw [List.length_cons] at enough
  exact ⟨steps - 1, by omega⟩

/-- The array that starts a text is empty, or its items come next. -/
theorem readValue_array {steps nesting digits : Nat} {text : List Char}
    (some : ∀ rest, skipSpace text ≠ ']' :: rest) :
    readValue (steps + 1) ⟨nesting + 1, digits⟩ ('[' :: text) =
      readItems steps ⟨nesting, digits⟩ (skipSpace text) >>= fun found =>
        .ok (.array found.1, found.2) := by
  simp only [readValue]
  rfl

/-- The object that starts a text is empty, or its members come next. -/
theorem readValue_object {steps nesting digits : Nat} {text : List Char}
    (some : ∀ rest, skipSpace text ≠ '}' :: rest) :
    readValue (steps + 1) ⟨nesting + 1, digits⟩ ('{' :: text) =
      readMembers steps ⟨nesting, digits⟩ [] (skipSpace text) >>= fun found =>
        .ok (.object found.1, found.2) := by
  simp only [readValue]
  rfl

theorem readValue_word {steps : Nat} {limits : Limits} {first : Char}
    {rest : List Char} (word : isWordCharacter first = true) :
    readValue (steps + 1) limits (first :: rest) =
      readAtom limits.digits (first :: rest) := by
  unfold readValue
  split
  case h_4 => rfl
  all_goals
    next same =>
      cases same
      exact absurd word (by decide)

/-- The member that starts a text: its key, a colon and its value. -/
theorem readMembers_member {steps : Nat} {limits : Limits}
    {body afterKey inside afterValue : List Char} {key : WideText} {value : Json}
    {known : List (WideText × Json)} (closed : IsBody body)
    (readKey : readLiteral (body ++ ['"']) = some (key, []))
    (colon : skipSpace afterKey = ':' :: inside)
    (readMember : readValue steps limits (skipSpace inside) =
      .ok (value, afterValue)) :
    readMembers (steps + 1) limits known ('"' :: (body ++ '"' :: afterKey)) =
      match skipSpace afterValue with
      | ',' :: rest =>
          readMembers steps limits
            (Association.insert key value known) (skipSpace rest)
      | '}' :: rest =>
          .ok (Association.insert key value known, rest)
      | _ => .error .malformed := by
  simp only [readMembers, readLiteral_of_closed closed readKey, orMalformed,
    ok_bind, colon, readMember]
  rfl

/-- The reader of a phrase takes the tokens that denote it, given as many steps
as there are tokens. -/
theorem Denotes.reads {limits : Limits} {taken : List Token} {phrase : Phrase}
    (denotes : Denotes limits taken phrase) {steps : Nat} {tokens : List Token}
    {text : List Char} (enough : taken.length ≤ steps + 1)
    (spells : Spells Blank (taken ++ tokens) text)
    (tight : skipSpace text = text) :
    ∃ rest, Reads (steps + 1) limits text phrase rest ∧
      Spells Blank tokens rest := by
  induction denotes generalizing steps tokens text with
  | @literal _ _ _ closed read =>
      obtain ⟨rest, starts, others⟩ := spells.exists_literal
      rw [tight] at starts
      subst starts
      refine ⟨rest, ?_, others⟩
      simp [Reads, readValue, readLiteral_of_closed closed read, orMalformed]
  | @word _ characters _ nonempty plain read =>
      obtain ⟨rest, starts, ends, others⟩ := spells.skipSpace_eq
      rw [tight] at starts
      subst starts
      refine ⟨rest, ?_, others⟩
      have exact := readAtom_of_ends read (ends trivial)
      cases characters with
      | nil => exact absurd rfl nonempty
      | cons first _ =>
          exact (readValue_word (plain first List.mem_cons_self)).trans exact
  | emptyArray =>
      obtain ⟨inside, starts, others⟩ := spells.exists_mark
      obtain ⟨rest, closes, later⟩ := others.exists_mark
      rw [tight] at starts
      subst starts
      refine ⟨rest, ?_, later⟩
      simp [Reads, readValue, closes, Mark.character]
  | array items ih =>
      obtain ⟨inside, starts, others⟩ := spells.exists_mark
      rw [tight] at starts
      subst starts
      have fewer : _ ≤ _ := Nat.le_of_succ_le_succ enough
      obtain ⟨steps, rfl⟩ := items.exists_succ fewer
      obtain ⟨rest, read, later⟩ :=
        ih fewer others.to_skipSpace (skipSpace_skipSpace _)
      refine ⟨rest, ?_, later⟩
      refine (readValue_array (items.skipSpace_ne others (.inl rfl))).trans ?_
      exact bind_eq_ok.mpr ⟨_, read, rfl⟩
  | emptyObject =>
      obtain ⟨inside, starts, others⟩ := spells.exists_mark
      obtain ⟨rest, closes, later⟩ := others.exists_mark
      rw [tight] at starts
      subst starts
      refine ⟨rest, ?_, later⟩
      simp [Reads, readValue, closes, Mark.character]
  | object members ih =>
      obtain ⟨inside, starts, others⟩ := spells.exists_mark
      rw [tight] at starts
      subst starts
      have fewer : _ ≤ _ := Nat.le_of_succ_le_succ enough
      obtain ⟨steps, rfl⟩ := members.exists_succ fewer
      obtain ⟨rest, read, later⟩ :=
        ih fewer others.to_skipSpace (skipSpace_skipSpace _)
      refine ⟨rest, ?_, later⟩
      refine (readValue_object (members.skipSpace_ne others (.inr rfl))).trans ?_
      exact bind_eq_ok.mpr ⟨_, read, rfl⟩
  | @lastItem _ itemTokens value item ih =>
      have fewer : itemTokens.length ≤ steps := by
        simp only [List.length_append, List.length_cons, List.length_nil] at enough
        omega
      obtain ⟨steps, rfl⟩ := item.exists_succ fewer
      rw [List.append_assoc] at spells
      obtain ⟨after, read, others⟩ := ih fewer spells tight
      obtain ⟨rest, closes, later⟩ := others.exists_mark
      refine ⟨rest, bind_eq_ok.mpr ⟨_, read, ?_⟩, later⟩
      simp only [closes, Mark.character]
      rfl
  | @item _ itemTokens otherTokens value values item others ih ihOthers =>
      simp only [List.length_append, List.length_cons] at enough
      have fewer : itemTokens.length ≤ steps := by omega
      have fewerOthers : otherTokens.length ≤ steps := by omega
      obtain ⟨steps, rfl⟩ := item.exists_succ fewer
      rw [List.append_assoc] at spells
      obtain ⟨after, read, more⟩ := ih fewer spells tight
      obtain ⟨inside, comma, left⟩ := more.exists_mark
      obtain ⟨rest, readOthers, later⟩ :=
        ihOthers fewerOthers left.to_skipSpace (skipSpace_skipSpace _)
      refine ⟨rest, bind_eq_ok.mpr ⟨_, read, ?_⟩, later⟩
      simp only [comma, Mark.character]
      exact bind_eq_ok.mpr ⟨_, readOthers, rfl⟩
  | @lastMember _ body key closed valueTokens value known readKey member ih =>
      have fewer : valueTokens.length ≤ steps := by
        simp only [List.length_append, List.length_cons, List.length_nil] at enough
        omega
      obtain ⟨steps, rfl⟩ := member.exists_succ fewer
      simp only [List.cons_append, List.append_assoc] at spells
      obtain ⟨afterKey, starts, more⟩ := spells.exists_literal
      rw [tight] at starts
      subst starts
      obtain ⟨inside, colon, left⟩ := more.exists_mark
      obtain ⟨after, read, others⟩ :=
        ih fewer left.to_skipSpace (skipSpace_skipSpace _)
      obtain ⟨rest, closes, later⟩ := others.exists_mark
      refine ⟨rest, ?_, later⟩
      refine (readMembers_member closed readKey colon read).trans ?_
      simp only [closes, Mark.character]
  | @member _ body key closed valueTokens otherTokens value known result readKey
      member others ih ihOthers =>
      simp only [List.length_append, List.length_cons] at enough
      have fewer : valueTokens.length ≤ steps := by omega
      have fewerOthers : otherTokens.length ≤ steps := by omega
      obtain ⟨steps, rfl⟩ := member.exists_succ fewer
      simp only [List.cons_append, List.append_assoc] at spells
      obtain ⟨afterKey, starts, more⟩ := spells.exists_literal
      rw [tight] at starts
      subst starts
      obtain ⟨inside, colon, left⟩ := more.exists_mark
      obtain ⟨after, read, next⟩ :=
        ih fewer left.to_skipSpace (skipSpace_skipSpace _)
      obtain ⟨afterComma, comma, last⟩ := next.exists_mark
      obtain ⟨rest, readOthers, later⟩ :=
        ihOthers fewerOthers last.to_skipSpace (skipSpace_skipSpace _)
      refine ⟨rest, ?_, later⟩
      refine (readMembers_member closed readKey colon read).trans ?_
      simp only [comma, Mark.character]
      exact readOthers

/-! ## Neighbouring tokens -/

/-- Tokens that can stand side by side in a value: no two words do, and no comma
stands before what closes an array or an object. -/
structure Adjacent (left right : Token) : Prop where
  words : left.IsWord → ¬ right.IsWord
  comma : left = .mark .comma → ¬ right.Closes

theorem adjacent_literal {body : List Char} {closed : IsBody body}
    {right : Token} : Adjacent (.literal body closed) right :=
  ⟨False.elim, fun same => by cases same⟩

theorem adjacent_word_mark {characters : List Char}
    {nonempty : characters ≠ []}
    {plain : ∀ character ∈ characters, isWordCharacter character = true}
    {kind : Mark} : Adjacent (.word characters nonempty plain) (.mark kind) :=
  ⟨fun _ => id, fun same => by cases same⟩

theorem isChain_mark {kind : Mark} {tokens : List Token}
    (different : kind ≠ .comma) (chain : tokens.IsChain Adjacent) :
    (Token.mark kind :: tokens).IsChain Adjacent := by
  refine List.isChain_cons.mpr
    ⟨fun token _ => ⟨False.elim, fun same => ?_⟩, chain⟩
  cases same
  exact absurd rfl different

theorem isChain_comma {first : Token} {tokens : List Token}
    (opens : ¬ first.Closes) (chain : (first :: tokens).IsChain Adjacent) :
    (Token.mark .comma :: first :: tokens).IsChain Adjacent :=
  .cons_cons ⟨False.elim, fun _ => opens⟩ chain

/-- The tokens of a phrase can stand side by side, also with a mark after
them. -/
theorem Denotes.isChain {limits : Limits} {tokens : List Token}
    {phrase : Phrase} (denotes : Denotes limits tokens phrase) (kind : Mark) :
    List.IsChain Adjacent (tokens ++ [.mark kind]) := by
  have alone : ∀ other : Mark, [Token.mark other].IsChain Adjacent :=
    fun other => .singleton _
  induction denotes generalizing kind with
  | literal => exact .cons_cons adjacent_literal (alone kind)
  | word => exact .cons_cons adjacent_word_mark (alone kind)
  | emptyArray | emptyObject =>
      exact isChain_mark (by decide) (isChain_mark (by decide) (alone kind))
  | array _ ih | object _ ih => exact isChain_mark (by decide) (ih kind)
  | lastItem _ ih =>
      rw [List.append_assoc]
      exact List.isChain_split.mpr
        ⟨ih _, isChain_mark (by decide) (alone kind)⟩
  | item _ others ih ihOthers =>
      obtain ⟨token, more, rfl, opens⟩ := others.exists_cons
      rw [List.append_assoc]
      exact List.isChain_split.mpr
        ⟨ih _, isChain_comma opens (ihOthers kind)⟩
  | lastMember _ _ ih =>
      simp only [List.cons_append, List.append_assoc]
      refine .cons_cons adjacent_literal (isChain_mark (by decide) ?_)
      exact List.isChain_split.mpr
        ⟨ih _, isChain_mark (by decide) (alone kind)⟩
  | member _ _ others ih ihOthers =>
      obtain ⟨token, more, rfl, opens⟩ := others.exists_cons
      simp only [List.cons_append, List.append_assoc]
      refine .cons_cons adjacent_literal (isChain_mark (by decide) ?_)
      exact List.isChain_split.mpr
        ⟨ih _, isChain_comma opens (ihOthers kind)⟩

/-! ## Whole texts -/

/-- A text holds a value exactly if its tokens denote the value. -/
theorem readWithin_eq_ok {limits : Limits} {text : List Char} {value : Json} :
    readWithin limits text = .ok value ↔
      ∃ tokens, Spells Blank tokens text ∧
        Denotes limits tokens (.value value) := by
  constructor
  · intro read
    obtain ⟨⟨found, rest⟩, read, made⟩ := bind_eq_ok.mp read
    dsimp only at made
    split at made
    · next blank =>
      cases made
      have empty : skipSpace rest = [] := by simpa using blank
      have spells : Spells Blank [] rest := .of_skipSpace (empty ▸ .done)
      have ends : Ends rest := ends_of_skipSpace (empty ▸ ends_nil)
      obtain ⟨taken, denotes, starts⟩ :=
        @takes _ _ _ _ (.value value) _ read ends spells
      rw [List.append_nil] at starts
      exact ⟨taken, .of_skipSpace starts, denotes⟩
    · cases made
  · intro denoted
    obtain ⟨tokens, spells, denotes⟩ := denoted
    have enough : tokens.length ≤ 2 * text.length + 1 := by
      have := spells.length_le
      omega
    rw [← List.append_nil tokens] at spells
    obtain ⟨rest, read, left⟩ :=
      denotes.reads enough spells.to_skipSpace (skipSpace_skipSpace text)
    refine bind_eq_ok.mpr ⟨_, read, ?_⟩
    simp only [left.skipSpace_eq_nil, List.isEmpty_nil, if_true]
    rfl

end ExportAudit.Json
