import ExportAudit.Text.Integer

/-!
# Failures

What stops an analysis as a whole, in contrast to a fault that is reported as
a finding.
-/

namespace ExportAudit

/-- Why an analysis stopped. -/
inductive Failure where
  | misplacedDeepWildcard
  | absolutePattern
  | extendsNotIterable
  | nestedTooDeeply
  | tooManyDigits (count : Nat)
  | nullCharacter
  | nameTooLong
  | noWorkers
  | splitCharacter
  deriving DecidableEq

/-- The reason in words. -/
def Failure.message : Failure → String
  | .misplacedDeepWildcard =>
      "Invalid pattern: '**' can only be an entire path component"
  | .absolutePattern => "Non-relative patterns are unsupported"
  | .extendsNotIterable => "'extends' cannot be iterated"
  | .nestedTooDeeply => "a description nests too deeply"
  | .tooManyDigits count => Text.tooManyDigitsMessage count
  | .nullCharacter => "embedded null byte"
  | .nameTooLong => "File name too long"
  | .noWorkers => "max_workers must be greater than 0"
  | .splitCharacter => "an edit splits a character"

end ExportAudit
