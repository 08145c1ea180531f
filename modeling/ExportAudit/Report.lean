import ExportAudit.Report.Group
import ExportAudit.Report.Icon
import ExportAudit.Report.Markup
import ExportAudit.Report.Record
import ExportAudit.Text.Width

/-!
# Reports

A report lists diagnostics below the files they belong to, or as records.  The
lines of a report are texts with markup.  A console prints them, and replaces
icons in the markup first if it does not show Unicode.  It leaves out control
characters that would move its cursor, and prints spaces for tabs.
-/

namespace ExportAudit

/-- Where lines are printed: whether icons are replaced. -/
structure Console where
  replacesIcons : Bool

namespace Console

/-- Whether a character is left out: it rings the bell or moves the cursor
back, up or down. -/
def omits (character : Char) : Bool :=
  character = '\x07' || character = '\x08' || character = '\x0b' ||
    character = '\x0c' || character = '\r'

/-- A text as a console shows it. -/
def shown (text : List Char) : List Char :=
  Text.expandTabs (text.filter fun character => !omits character)

/-- A line with markup as a console prints it. -/
def printLine (console : Console) (line : List Char) : List Char :=
  shown (Markup.print
    (if console.replacesIcons then replaceIcons line else line)) ++ ['\n']

/-- Lines with markup as a console prints them. -/
def printLines (console : Console) (lines : List (List Char)) : List Char :=
  lines.flatMap console.printLine

end Console

/-- A text between the tags of a style. -/
def styled (style : String) (text : List Char) : List Char :=
  ("[" ++ style ++ "]").toList ++ text ++ ("[/" ++ style ++ "]").toList

/-- The style of a level, if it has one. -/
def Level.style? : Level → Option String
  | .error => some "red"
  | .warn => some "yellow"
  | .info => none

namespace Diagnostic

/-- The message of a diagnostic with markup. -/
def markup (diagnostic : Diagnostic) : List Char :=
  let text := Markup.escape diagnostic.message.toList
  match diagnostic.level.style? with
  | some style => styled style text
  | none => text

/-- The line of a diagnostic. -/
def listedLine (diagnostic : Diagnostic) : List Char :=
  ['➜', ' '] ++ diagnostic.markup

end Diagnostic

/-- The lines of a group: its heading, its diagnostics and an empty line. -/
def groupLines (group : String × List Diagnostic) : List (List Char) :=
  [styled "bold" (Markup.escape group.1.toList)] ++
    group.2.map Diagnostic.listedLine ++ [[]]

/-- The lines of a report. -/
def reportLines (diagnostics : List Diagnostic) : List (List Char) :=
  (groupByFile diagnostics).flatMap groupLines

/-- A report as a console prints it. -/
def render (console : Console) (diagnostics : List Diagnostic) : List Char :=
  console.printLines (reportLines diagnostics)

/-- A report as records, on lines of their own. -/
def renderRecords (diagnostics : List Diagnostic) : List Char :=
  Record.printAll (diagnostics.map Diagnostic.record) ++ ['\n']

end ExportAudit
