import ExportAudit.Text.Letter

/-!
# Icons on terminals

A terminal that does not show Unicode gets a replacement for each icon.  What a
terminal can show is told by the name of its encoding.
-/

namespace ExportAudit

/-- The icons and their replacements. -/
def iconReplacements : List (Char × String) :=
  [('✓', "[OK]"), ('✗', "[FAIL]"), ('⚠', "[WARN]"), ('➜', "->"), ('→', "->"),
    ('•', "*"), ('…', "...")]

/-- A text with its icons replaced. -/
def replaceIcons (text : List Char) : List Char :=
  text.flatMap fun character =>
    match iconReplacements.lookup character with
    | some replacement => replacement.toList
    | none => [character]

/-- The encoding of a terminal: its own if it names one, otherwise the one of
the locale if that is known. -/
def terminalEncoding (own locale : Option String) : String :=
  match own with
  | some "" | none => Text.lower (locale.getD "ascii")
  | some encoding => Text.lower encoding

/-- Whether an encoding is UTF-8, however hyphens and underscores are set. -/
def isUtf8Encoding (encoding : String) : Bool :=
  encoding.toList.filter (fun character =>
    character ≠ '-' ∧ character ≠ '_') = "utf8".toList

/-- A text for a terminal: icons are replaced if this is asked for or the
terminal does not show Unicode. -/
def sanitizeForTerminal (encoding : String) (force : Bool) (text : String) :
    String :=
  if !force && isUtf8Encoding encoding then text
  else String.ofList (replaceIcons text.toList)

end ExportAudit
