import ExportAudit.Pattern.Wildcard
import ExportAudit.Text.Wide

/-!
# Patterns with lone surrogates

A pattern that a description lists can hold lone surrogates, which are in no name
of a file system.  By itself a lone surrogate matches nothing, like the null
character.  A range from or to one has the characters above or below all
surrogates that the other end admits.
-/

namespace ExportAudit

namespace Pattern

/-- Two characters whose range has the characters of names between two points.
A range between surrogates that is not reversed has none, but stays. -/
def rangeEnds : Point → Point → Char × Char
  | .surrogate lowest, .surrogate highest =>
      if lowest ≤ highest then ('\x00', '\x00') else ('\ue000', '\ud7ff')
  | lowest, highest =>
      (lowest.characterOr '\ue000', highest.characterOr '\ud7ff')

/-- The items of a bracket expression in characters. -/
def itemText : List Point → List Char
  | lowest :: .character '-' :: highest :: rest =>
      (rangeEnds lowest highest).1 :: '-' :: (rangeEnds lowest highest).2 ::
        itemText rest
  | point :: rest => point.characterOr '\x00' :: itemText rest
  | [] => []

/-- The body of a bracket expression in characters. -/
def bodyText : List Point → List Char
  | .character '!' :: rest => '!' :: itemText rest
  | body => itemText body

/-- A pattern in characters. -/
def patternText : List Point → List Char
  | [] => []
  | .character '[' :: rest =>
      match bodyLength? (rest.map (Point.characterOr '\x00')) with
      | some length =>
          '[' :: (bodyText (rest.take length) ++ patternText (rest.drop length))
      | none => '[' :: patternText rest
  | point :: rest => point.characterOr '\x00' :: patternText rest
termination_by points => points.length
decreasing_by all_goals grind

end Pattern

namespace WideText

/-- The text as a pattern that is followed component by component. -/
def asInclude (text : WideText) : String :=
  String.ofList (['/'].intercalate
    ((text.points.splitOn (.character '/')).map Pattern.patternText))

/-- The text as a pattern that is matched as a whole. -/
def asExclude (text : WideText) : String :=
  String.ofList (Pattern.patternText text.points)

end WideText

end ExportAudit
