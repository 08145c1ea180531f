import ExportAudit.Text.Quoted

/-!
# Labels

Policies, levels and languages are named by labels.  A text that should be such
a label may be none.
-/

namespace ExportAudit

/-- A text that is no label of what it should name. -/
inductive UnknownLabel where
  | policy (text : String)
  | level (text : String)
  | language (text : String)
  deriving DecidableEq

/-- What is wrong, in words. -/
def UnknownLabel.message : UnknownLabel → String
  | .policy text => Text.quoted text ++ " is not a valid ReexportPolicy"
  | .level text => Text.quoted text ++ " is not a valid Level"
  | .language text => "Unsupported language: " ++ text

end ExportAudit
