import Recompile.Decimal.Nearest

/-!
# The shortest decimal that reads back as a double

Every real in an interval around a double reads back as that double; the ends belong to it when the
mantissa is even.  The shortest decimal is looked for on grids that get finer by one digit at a
time: on each grid only the two neighbours of the double's exact value have to be tried.  Of two
that read back the nearer one is taken, and the larger one on a tie.
-/

namespace Recompile.Decimal

/-- A decimal number `digits * 10 ^ power`. -/
structure Digits where
  /-- The digits, as a number. -/
  digits : Nat
  /-- The power of ten. -/
  power : Int
deriving DecidableEq, Inhabited

/-- The value of a finite double in quarters of a unit: the quarters of the value itself and of the
two ends of its interval, and the unit as a quotient. -/
structure Interval where
  /-- The lower end. -/
  lower : Nat
  /-- The value. -/
  value : Nat
  /-- The upper end. -/
  upper : Nat
  /-- Whether the ends read back, too. -/
  closed : Bool
  /-- What all three have to be divided by. -/
  scale : Nat

/-- The interval of a finite double: between a power of two and its lower neighbour the distance is
half of that on the other side. -/
def intervalOf (x : Binary64) : Interval :=
  let m := x.mantissa
  let lowerGap := if m = Nat.pow 2 52 ∧ 1 < x.exponentField then 1 else 2
  let (unit, scale) : Nat × Nat := match x.exponent with
    | .ofNat n => (Nat.pow 2 n, 4)
    | .negSucc n => (1, 4 * Nat.pow 2 (n + 1))
  { lower := (4 * m - lowerGap) * unit, value := 4 * m * unit, upper := (4 * m + 2) * unit,
    closed := m % 2 = 0, scale }

/-- Whether `digits * 10 ^ power` lies in the interval. -/
def Interval.contains (interval : Interval) (digits : Nat) (power : Int) : Bool :=
  let (point, factor) : Nat × Nat := match power with
    | .ofNat n => (digits * Nat.pow 10 n * interval.scale, 1)
    | .negSucc n => (digits * interval.scale, Nat.pow 10 (n + 1))
  if interval.closed then
    interval.lower * factor ≤ point && point ≤ interval.upper * factor
  else interval.lower * factor < point && point < interval.upper * factor

/-- The neighbours of the value on the grid of multiples of `10 ^ power`: the largest multiple that
is not above it, and whether the next one is at most as far away. -/
def Interval.below (interval : Interval) (power : Int) : Nat × Bool :=
  let (n, d) : Nat × Nat := match power with
    | .ofNat k => (interval.value, interval.scale * Nat.pow 10 k)
    | .negSucc k => (interval.value * Nat.pow 10 (k + 1), interval.scale)
  (n / d, d ≤ 2 * (n % d))

/-- The point of a grid that reads back and is nearest to the value. -/
def Interval.onGrid? (interval : Interval) (power : Int) : Option Digits :=
  let (low, preferHigh) := interval.below power
  let lowFits := interval.contains low power
  let highFits := interval.contains (low + 1) power
  if lowFits && highFits then some ⟨if preferHigh then low + 1 else low, power⟩
  else if lowFits then some ⟨low, power⟩
  else if highFits then some ⟨low + 1, power⟩
  else none

/-- The first hit on grids that get finer, for as many grids as stated. -/
def Interval.search (interval : Interval) : Nat → Int → Digits
  | 0, power => ⟨(interval.below power).1, power⟩
  | grids + 1, power =>
    match interval.onGrid? power with
    | some digits => digits
    | none => interval.search grids (power - 1)

/-- The place of the leading digit of the value, counted from the units. -/
def Interval.leading (interval : Interval) : Int :=
  let whole := interval.value / interval.scale
  if 0 < whole then (Nat.toDigits 10 whole).length - 1
  else
    -- No double is smaller than five units in the 324th place.
    let shifted := interval.value * Nat.pow 10 400 / interval.scale
    (Nat.toDigits 10 shifted).length - 401

/-- The shortest decimal for the magnitude of a finite double other than zero.  Seventeen digits
always suffice; the first grid is one place above the leading digit. -/
def shortest (x : Binary64) : Digits :=
  let interval := intervalOf x
  interval.search 18 (interval.leading + 1)

/-- A decimal number without an exponent: digits, a point, and at least one digit on each side. -/
def positional (number : Digits) : List Char :=
  let digits := Nat.toDigits 10 number.digits
  match number.power with
  | .ofNat n => digits ++ List.replicate n '0' ++ ['.', '0']
  | .negSucc n =>
    let places := n + 1
    let padded := List.replicate (places + 1 - digits.length) '0' ++ digits
    let whole := padded.length - places
    padded.take whole ++ '.' :: padded.drop whole

/-- A double as text: the shortest decimal that reads back, without an exponent.  What is no number
has no sign. -/
def text (x : Binary64) : String :=
  if x.isNaN then "nan"
  else
    let sign := if x.isNegative then ['-'] else []
    if x.isInfinite then String.ofList (sign ++ ['i', 'n', 'f'])
    else if x.mantissa = 0 then String.ofList (sign ++ ['0', '.', '0'])
    else String.ofList (sign ++ positional (shortest x))

end Recompile.Decimal
