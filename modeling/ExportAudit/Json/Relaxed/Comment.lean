/-!
# Comments in JSON

A line comment starts with two slashes and ends before the next line feed.  A
block comment stands between `/*` and `*/`.  Neither starts inside a string
literal, and a comment that is not closed extends to the end of the text.
-/

namespace ExportAudit.Json.Relaxed

/-- Where in a text with comments a character stands. -/
inductive Region where
  | plain
  | literal
  | lineComment
  | blockComment

/-- Remove the comments of a text that starts in the given region. -/
def withoutComments : Region → List Char → List Char
  | _, [] => []
  | .plain, '/' :: '/' :: rest => withoutComments .lineComment rest
  | .plain, '/' :: '*' :: rest => withoutComments .blockComment rest
  | .plain, '"' :: rest => '"' :: withoutComments .literal rest
  | .plain, character :: rest => character :: withoutComments .plain rest
  | .literal, '\\' :: character :: rest =>
      '\\' :: character :: withoutComments .literal rest
  | .literal, '"' :: rest => '"' :: withoutComments .plain rest
  | .literal, character :: rest => character :: withoutComments .literal rest
  | .lineComment, '\n' :: rest => '\n' :: withoutComments .plain rest
  | .lineComment, _ :: rest => withoutComments .lineComment rest
  | .blockComment, '*' :: '/' :: rest => withoutComments .plain rest
  | .blockComment, _ :: rest => withoutComments .blockComment rest

/-- Remove the comments of a text. -/
def stripComments (text : List Char) : List Char := withoutComments .plain text

end ExportAudit.Json.Relaxed
