import ExportAudit.Json.Value

/-!
# Decimal numbers as binary64 numbers

A decimal number becomes the nearest binary64 number; a tie goes to the even
significand.  The significand and the exponent of the result are found in exact
arithmetic on natural numbers.
-/

namespace ExportAudit.Json.Binary64

/-- The quotient rounded to the nearest integer, ties to even. -/
def roundedQuotient (numerator denominator : Nat) : Nat :=
  let quotient := numerator / denominator
  let twice := 2 * (numerator % denominator)
  if twice < denominator then quotient
  else if twice = denominator then quotient + quotient % 2
  else quotient + 1

/-- The greatest `exponent` with `2 ^ exponent ≤ numerator / denominator`, for
positive arguments. -/
def floorLog (numerator denominator : Nat) : Int :=
  let estimate : Int := numerator.log2 - denominator.log2
  let reached :=
    if estimate ≥ 0 then denominator <<< estimate.toNat ≤ numerator
    else denominator ≤ numerator <<< (-estimate).toNat
  if reached then estimate else estimate - 1

/-- Bits of the binary64 number nearest to a positive quotient.  The weight of
the last significand bit is a power of two that is at least `2 ^ -1074`; adding
the significand to the shifted exponent carries into the exponent. -/
def ofQuotient (numerator denominator : Nat) : UInt64 :=
  let weight := max (floorLog numerator denominator - 52) (-1074)
  let significand :=
    if weight ≥ 0 then
      roundedQuotient numerator (denominator <<< weight.toNat)
    else
      roundedQuotient (numerator <<< (-weight).toNat) denominator
  let bits := ((weight + 1074).toNat <<< 52) + significand
  if bits < infinityBits.toNat then UInt64.ofNat bits else infinityBits

/-- Bits of the binary64 number nearest to `significand * 10 ^ exponent`.  A
number of at least `10 ^ 310` is infinite and one below `10 ^ -330` is zero,
whatever its digits. -/
def ofDecimal (significand : Nat) (exponent : Int) : UInt64 :=
  let magnitude := exponent + (Nat.toDigits 10 significand).length
  if significand = 0 || magnitude < -330 then 0
  else if magnitude > 310 then infinityBits
  else if exponent ≥ 0 then ofQuotient (significand * Nat.pow 10 exponent.toNat) 1
  else ofQuotient significand (Nat.pow 10 (-exponent).toNat)

end ExportAudit.Json.Binary64
