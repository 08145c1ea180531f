import ExportAudit.Text.Blank

/-!
# Files of assignments

A file of assignments gives values to variables.

* An assignment is a name, an equals sign and a value on one line, with blanks
  around them and possibly the word `export` in front.  A name alone assigns
  nothing.
* A name consists of characters other than blanks, `=` and `#`, or stands
  between single quotes.
* A value stands between quotes and may then span lines, or it is the rest of
  the line up to a comment.  A backslash keeps the quote after it from closing
  the value, and a quote that is never closed makes no assignment.
* A comment starts with `#` at the start of a line, after a quoted value, or
  after a blank, and ends with its line.

A line that is not an assignment is skipped.  Line breaks are line feeds.
-/

namespace ExportAudit

/-- A variable with the value that is assigned to it, if there is one. -/
structure Assignment where
  name : String
  value : Option String
  deriving DecidableEq

namespace Assignment

/-- Whether a character is a blank inside a line. -/
def isInlineBlank (character : Char) : Bool :=
  Text.isBlank character && character ≠ '\n'

/-- The text without the blanks that precede anything else on its line. -/
def skipBlanks (text : List Char) : List Char := text.dropWhile isInlineBlank

/-- The rest of the first line. -/
def firstLine (text : List Char) : List Char := text.takeWhile (· ≠ '\n')

/-- The text after its first line. -/
def dropLine (text : List Char) : List Char :=
  (text.dropWhile (· ≠ '\n')).drop 1

/-- The text without the word `export` and the blanks after it. -/
def dropExport (text : List Char) : List Char :=
  match text with
  | 'e' :: 'x' :: 'p' :: 'o' :: 'r' :: 't' :: blank :: rest =>
      if isInlineBlank blank then skipBlanks rest else text
  | _ => text

/-- Whether a character may stand in a name without quotes. -/
def isNameCharacter (character : Char) : Bool :=
  character ≠ '=' && character ≠ '#' && !Text.isBlank character

/-- The name at the start of a text, and what follows it. -/
def name? (text : List Char) : Option (List Char × List Char) :=
  let split (name rest : List Char) : Option (List Char × List Char) :=
    if name.isEmpty then none else some (name, rest)
  match text with
  | '\'' :: rest =>
      match rest.dropWhile (· ≠ '\'') with
      | _ :: after => split (rest.takeWhile (· ≠ '\'')) after
      | [] => none
  | _ => split (text.takeWhile isNameCharacter) (text.dropWhile isNameCharacter)

/-- What a quote encloses, and what follows the quote that closes it.  A
backslash and the character after it belong together, so a quote after a
backslash does not close. -/
def enclosed? (quote : Char) : List Char → Option (List Char × List Char)
  | [] => none
  | '\\' :: next :: rest =>
      (enclosed? quote rest).map fun found =>
        ('\\' :: next :: found.1, found.2)
  | character :: rest =>
      if character = quote then some ([], rest)
      else
        (enclosed? quote rest).map fun found => (character :: found.1, found.2)

/-- What an escape between single quotes denotes. -/
def singleEscape? : Char → Option Char
  | '\\' => some '\\'
  | '\'' => some '\''
  | _ => none

/-- What an escape between double quotes denotes. -/
def doubleEscape? : Char → Option Char
  | '\\' => some '\\'
  | '\'' => some '\''
  | '"' => some '"'
  | 'a' => some '\x07'
  | 'b' => some '\x08'
  | 'f' => some '\x0c'
  | 'n' => some '\n'
  | 'r' => some '\r'
  | 't' => some '\t'
  | 'v' => some '\x0b'
  | _ => none

/-- A text with its escapes replaced by what they denote; a backslash that
starts no escape stays. -/
def unescape (escape? : Char → Option Char) : List Char → List Char
  | '\\' :: letter :: rest =>
      match escape? letter with
      | some character => character :: unescape escape? rest
      | none => '\\' :: unescape escape? (letter :: rest)
  | character :: rest => character :: unescape escape? rest
  | [] => []

/-- A line up to a comment, which a blank separates from what precedes it. -/
def beforeComment : List Char → List Char
  | [] => []
  | character :: rest =>
      if Text.isBlank character && rest.head? = some '#' then []
      else character :: beforeComment rest

/-- The value after an equals sign, and what follows it. -/
def value? (text : List Char) : Option (List Char × List Char) :=
  match skipBlanks text with
  | '\'' :: rest =>
      (enclosed? '\'' rest).map fun found =>
        (unescape singleEscape? found.1, found.2)
  | '"' :: rest =>
      (enclosed? '"' rest).map fun found =>
        (unescape doubleEscape? found.1, found.2)
  | _ =>
      some (Text.trim (beforeComment (firstLine text)),
        text.dropWhile (· ≠ '\n'))

/-- What follows the line of an assignment if only a comment stands on the rest
of that line. -/
def afterLine? (text : List Char) : Option (List Char) :=
  match skipBlanks text with
  | [] => some []
  | '\n' :: rest => some rest
  | '#' :: rest => some (dropLine rest)
  | _ => none

/-- The assignment at the start of a text, if it is one, and what follows its
line. -/
def readFirst (text : List Char) : Option Assignment × List Char :=
  let close (assignment : Assignment) (rest : List Char) :
      Option Assignment × List Char :=
    match afterLine? rest with
    | some next => (some assignment, next)
    | none => (none, dropLine rest)
  let start := dropExport text
  match name? start with
  | none => (none, dropLine start)
  | some (name, rest) =>
      match skipBlanks rest with
      | '=' :: rest =>
          match value? rest with
          | some (value, rest) =>
              close ⟨String.ofList name, some (String.ofList value)⟩ rest
          | none => (none, dropLine rest)
      | rest => close ⟨String.ofList name, none⟩ rest

/-- The assignments of a text. -/
def readAll (text : List Char) : List Assignment :=
  match text.dropWhile Text.isBlank with
  | [] => []
  | start =>
      let (assignment, rest) := readFirst start
      if rest.length < text.length then assignment.toList ++ readAll rest
      else assignment.toList
termination_by text.length

end Assignment

end ExportAudit
