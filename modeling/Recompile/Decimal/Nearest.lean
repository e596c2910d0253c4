import Recompile.Decimal.Binary64

/-!
# The double nearest to a decimal number

A decimal number `digits * 10 ^ power` is a quotient of two natural numbers.  The quotient is scaled
by a power of two so that its integer part has 53 bits, or fewer where doubles are evenly spaced
around zero, and rounded to the nearest integer, a tie to the even one.
-/

namespace Recompile.Decimal

/-- The natural number nearest to a quotient; of two equally near ones the even one. -/
def roundQuotient (numerator denominator : Nat) : Nat :=
  let whole := numerator / denominator
  let rest := numerator % denominator
  if 2 * rest < denominator then whole
  else if denominator < 2 * rest then whole + 1
  else whole + whole % 2

/-- A quotient, divided by a power of two, as numerator and denominator. -/
def scaleDown (numerator denominator : Nat) (power : Int) : Nat × Nat :=
  match power with
  | .ofNat n => (numerator, denominator * Nat.pow 2 n)
  | .negSucc n => (numerator * Nat.pow 2 (n + 1), denominator)

/-- The magnitude bits of the double nearest to a positive quotient; infinity if it is too large. -/
def nearestMagnitude (numerator denominator : Nat) : Nat :=
  let estimate : Int := (numerator.log2 : Int) - denominator.log2 - 53
  let (n, d) := scaleDown numerator denominator estimate
  let power : Int := max (if n < d * Nat.pow 2 53 then estimate else estimate + 1) (-1074)
  let (n, d) := scaleDown numerator denominator power
  let magnitude := Binary64.magnitudeOf (roundQuotient n d) (power + 1075).toNat
  min magnitude Binary64.infiniteMagnitude

/-- The double nearest to `digits * 10 ^ power`, with a sign. -/
def nearest (negative : Bool) (digits : Nat) (power : Int) : Binary64 :=
  -- The place of the leading digit decides alone when it is far outside the range of doubles.
  let leading : Int := (Nat.toDigits 10 digits).length + power
  if digits = 0 ∨ leading < -400 then .ofMagnitude negative 0
  else if 400 < leading then .infinity negative
  else
    match power with
    | .ofNat n => .ofMagnitude negative (nearestMagnitude (digits * Nat.pow 10 n) 1)
    | .negSucc n => .ofMagnitude negative (nearestMagnitude digits (Nat.pow 10 (n + 1)))

end Recompile.Decimal
