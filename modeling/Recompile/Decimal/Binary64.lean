/-!
# Binary64: the bits of a double

A double is kept as its 64 bits, so that equal values are equal bits and nothing is rounded on the
way.  A finite double has the value `mantissa * 2 ^ exponent`, up to its sign.
-/

namespace Recompile

/-- A double, as its bits. -/
structure Binary64 where
  /-- The bits: sign, eleven bits of exponent, fifty-two bits of fraction. -/
  bits : UInt64
deriving DecidableEq, Inhabited

namespace Binary64

/-- Whether the sign bit is set. -/
def isNegative (x : Binary64) : Bool := Nat.pow 2 63 ≤ x.bits.toNat

/-- The eleven bits of the exponent. -/
def exponentField (x : Binary64) : Nat := x.bits.toNat / Nat.pow 2 52 % 2048

/-- The fifty-two bits of the fraction. -/
def fraction (x : Binary64) : Nat := x.bits.toNat % Nat.pow 2 52

/-- Whether the double is no number. -/
def isNaN (x : Binary64) : Bool := x.exponentField = 2047 && x.fraction ≠ 0

/-- Whether the double is infinite. -/
def isInfinite (x : Binary64) : Bool := x.exponentField = 2047 && x.fraction = 0

/-- The mantissa of a finite double. -/
def mantissa (x : Binary64) : Nat :=
  if x.exponentField = 0 then x.fraction else x.fraction + Nat.pow 2 52

/-- The exponent of a finite double. -/
def exponent (x : Binary64) : Int :=
  if x.exponentField = 0 then -1074 else (x.exponentField : Int) - 1075

/-- The double with the given magnitude bits and sign. -/
def ofMagnitude (negative : Bool) (magnitude : Nat) : Binary64 :=
  ⟨UInt64.ofNat (magnitude + if negative then Nat.pow 2 63 else 0)⟩

/-- The magnitude bits of infinity. -/
def infiniteMagnitude : Nat := 2047 * Nat.pow 2 52

/-- Infinity. -/
def infinity (negative : Bool) : Binary64 := ofMagnitude negative infiniteMagnitude

/-- The quiet value that is no number; it has a sign, too. -/
def nan (negative : Bool) : Binary64 := ofMagnitude negative (infiniteMagnitude + Nat.pow 2 51)

/-- The magnitude bits of `mantissa * 2 ^ (field - 1075)`, for a mantissa of at most 53 bits that
has exactly 53 unless the field is one; a mantissa one too large moves on to the next exponent. -/
def magnitudeOf (mantissa field : Nat) : Nat :=
  if mantissa < Nat.pow 2 52 then mantissa else field * Nat.pow 2 52 + (mantissa - Nat.pow 2 52)

end Binary64

end Recompile
