/-!
# Strict total orders

The order by which values are listed: of two different values, exactly one comes
before the other.  Texts are ordered by the code points of their characters.
-/

namespace ExportAudit

universe u

/-- The order `<` of a type is a strict total order. -/
class StrictOrder (α : Type u) [LT α] : Prop where
  trans : ∀ {first second third : α},
    first < second → second < third → first < third
  asymm : ∀ {left right : α}, left < right → ¬ right < left
  connected : ∀ {left right : α}, ¬ left < right → ¬ right < left → left = right

instance : StrictOrder String where
  trans := String.lt_trans
  asymm := String.lt_asymm
  connected := fun notBefore notAfter =>
    String.le_antisymm (String.not_lt.mp notAfter) (String.not_lt.mp notBefore)

end ExportAudit
