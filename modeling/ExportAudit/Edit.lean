import ExportAudit.Text.Utf8

/-!
# Edits of a source text

An edit replaces a range of bytes.  Of a list of edits, those are kept that
start at or after the end of every edit kept before them, taken by start and
longer ones first.  Kept edits are disjoint, so applying them from the last to
the first replaces all their ranges at once.
-/

namespace ExportAudit

/-- The replacement of a range of bytes by a text. -/
structure Edit where
  start : Nat
  stop : Nat
  replacement : String
  deriving DecidableEq

namespace Edit

/-- Whether an edit is considered no later than another: by start, the longer
range first. -/
def considered (left right : Edit) : Bool :=
  left.start < right.start ||
    (left.start = right.start && right.stop ≤ left.stop)

/-- The edits that start at or after a position and after each other. -/
def keepFrom (position : Nat) : List Edit → List Edit
  | [] => []
  | edit :: rest =>
      if position ≤ edit.start then edit :: keepFrom edit.stop rest
      else keepFrom position rest

/-- The edits that are kept of a list. -/
def keep (edits : List Edit) : List Edit :=
  keepFrom 0 (edits.mergeSort considered)

/-- Replace the range of an edit. -/
def apply (edit : Edit) (source : List UInt8) : List UInt8 :=
  source.take edit.start ++ Text.Utf8.encode edit.replacement ++
    source.drop (max edit.start edit.stop)

/-- Apply edits that stand in order, from the last to the first. -/
def applyAll (edits : List Edit) (source : List UInt8) : List UInt8 :=
  edits.foldr apply source

end Edit

end ExportAudit
