/-!
# Lines

A line break is a line feed, a carriage return, or a carriage return directly
followed by a line feed.
-/

namespace ExportAudit.Text

/-- A text with every line break written as one line feed. -/
def unifyLineBreaks : List Char → List Char
  | '\r' :: '\n' :: rest => '\n' :: unifyLineBreaks rest
  | '\r' :: rest => '\n' :: unifyLineBreaks rest
  | character :: rest => character :: unifyLineBreaks rest
  | [] => []

/-- The lines of a text, without their line breaks. -/
def lines (text : List Char) : List (List Char) :=
  (unifyLineBreaks text).splitOn '\n'

end ExportAudit.Text
