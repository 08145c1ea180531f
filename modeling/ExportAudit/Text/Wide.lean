/-!
# Texts with lone surrogates

A text that JSON describes can hold surrogates without their partners.  They are
no characters, and nothing that is read from a file or given as a name holds
them.
-/

namespace ExportAudit

/-- A character, or a surrogate without its partner. -/
inductive Point where
  | character (value : Char)
  | surrogate (unit : Nat)
  deriving DecidableEq

/-- A text of characters and lone surrogates. -/
structure WideText where
  points : List Point
  deriving DecidableEq

namespace Point

/-- The character of a point, if it is one. -/
def character? : Point → Option Char
  | .character value => some value
  | .surrogate _ => none

/-- The character of a point, or another one for every surrogate. -/
def characterOr (replacement : Char) : Point → Char
  | .character value => value
  | .surrogate _ => replacement

/-- Whether a lone surrogate stands for a byte of a name that is not UTF-8. -/
def isByte (unit : Nat) : Bool := 0xdc80 ≤ unit && unit < 0xdd00

/-- What a point is in a name on a path.  A name with such a byte can be asked
for, but is the name of nothing that a text names: the byte is kept as the slash,
which no name holds.  Any other lone surrogate cannot be asked for, like the null
character, and is kept as that. -/
def inName : Point → Char
  | .character value => value
  | .surrogate unit => if isByte unit then '/' else '\x00'

end Point

namespace WideText

/-- A text without surrogates. -/
def ofString (text : String) : WideText := ⟨text.toList.map .character⟩

instance : Coe String WideText := ⟨ofString⟩

/-- The text, if it has no surrogates. -/
def text? (text : WideText) : Option String :=
  (text.points.mapM Point.character?).map String.ofList

/-- The text with the replacement character for each surrogate. -/
def shown (text : WideText) : String :=
  String.ofList (text.points.map (Point.characterOr '\ufffd'))

section OfString

variable (text : String)

@[simp] theorem text?_ofString : (ofString text).text? = some text := by
  have characters : ∀ characters : List Char,
      (characters.map Point.character).mapM Point.character? =
        some characters := by
    intro characters
    induction characters with
    | nil => rfl
    | cons first rest ih =>
        rw [List.map_cons, List.mapM_cons, ih]
        rfl
  rw [text?, ofString, characters, Option.map_some, String.ofList_toList]

theorem map_characterOr (replacement : Char) (characters : List Char) :
    (characters.map Point.character).map (Point.characterOr replacement) =
      characters := by
  rw [List.map_map]
  exact List.map_id characters

@[simp] theorem shown_ofString : (ofString text).shown = text := by
  rw [shown, ofString, map_characterOr, String.ofList_toList]

end OfString

@[simp] theorem ofString_inj {left right : String} :
    ofString left = ofString right ↔ left = right := by
  constructor
  · intro same
    have texts := congrArg shown same
    rwa [shown_ofString, shown_ofString] at texts
  · intro same
    rw [same]

end WideText

end ExportAudit
