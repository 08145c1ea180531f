import ExportAudit.Association
import ExportAudit.Settings.Assignment

/-!
# Variables inside values

In the value of an assignment a name between braces after a dollar sign stands
for the value of that variable, and a text after `:-` stands for it if there is
no such variable.  Variables of the environment come before those assigned
earlier.  A variable to which no value was assigned stands for nothing.
-/

namespace ExportAudit.Assignment

/-- A variable inside a value, and what stands for it if it is unknown. -/
structure Mention where
  name : List Char
  fallback : List Char

/-- The mention that goes on after the opening brace, and what follows it. -/
def mention? (text : List Char) : Option (Mention × List Char) :=
  let isName (character : Char) : Bool := character ≠ '}' && character ≠ ':'
  let name := text.takeWhile isName
  match text.dropWhile isName with
  | '}' :: rest => some (⟨name, []⟩, rest)
  | ':' :: '-' :: rest =>
      match rest.dropWhile (· ≠ '}') with
      | _ :: after => some (⟨name, rest.takeWhile (· ≠ '}')⟩, after)
      | [] => none
  | _ => none

theorem length_dropWhile_le (keep : Char → Bool) (text : List Char) :
    (text.dropWhile keep).length ≤ text.length :=
  (List.dropWhile_sublist keep).length_le

theorem length_lt_of_mention? {text rest : List Char} {mention : Mention}
    (found : mention? text = some (mention, rest)) :
    rest.length < text.length := by
  unfold mention? at found
  simp only at found
  have whole := length_dropWhile_le
    (fun character => character ≠ '}' && character ≠ ':') text
  split at found
  · rename_i equal
    rw [equal] at whole
    simp only [Option.some.injEq, Prod.mk.injEq] at found
    simp only [List.length_cons, found.2] at whole
    omega
  · rename_i inner equal
    rw [equal] at whole
    have part := length_dropWhile_le (· ≠ '}') inner
    split at found
    · rename_i closing
      rw [closing] at part
      simp only [Option.some.injEq, Prod.mk.injEq] at found
      simp only [List.length_cons, found.2] at whole part
      omega
    · simp at found
  · simp at found

/-- A value with each mention replaced by what it stands for. -/
def interpolate (meaning : Mention → List Char) : List Char → List Char
  | [] => []
  | '$' :: '{' :: rest =>
      match found : mention? rest with
      | some (mention, after) =>
          have := length_lt_of_mention? found
          meaning mention ++ interpolate meaning after
      | none => '$' :: interpolate meaning ('{' :: rest)
  | character :: rest => character :: interpolate meaning rest
termination_by text => text.length
decreasing_by all_goals simp <;> omega

/-- What a mention stands for, given the variables of the environment and those
assigned so far. -/
def meaning (environment : List (String × String))
    (assigned : List (String × Option String)) (mention : Mention) :
    List Char :=
  let name := String.ofList mention.name
  match Association.find? name environment with
  | some value => value.toList
  | none =>
      match Association.find? name assigned with
      | some value => (value.getD "").toList
      | none => mention.fallback

/-- The variables of assignments with their values, in the order in which they
are first assigned.  A later assignment replaces the value of an earlier one. -/
def evaluate (environment : List (String × String))
    (assignments : List Assignment) : List (String × Option String) :=
  assignments.foldl (fun assigned assignment =>
    Association.insert assignment.name
      (assignment.value.map fun value => String.ofList
        (interpolate (meaning environment assigned) value.toList))
      assigned) []

end ExportAudit.Assignment
