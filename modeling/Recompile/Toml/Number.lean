import Recompile.Decimal.Nearest
import Recompile.Toml.Blank

/-!
# Numbers in documents

The digits of a number may have underscores between them.  Integers are decimal, without needless
zeros in front and perhaps with a sign, or hexadecimal, octal or binary without one; they have 64
bits.  Other numbers are rounded to the nearest double, and may not be so large that they round to
infinity; only negative ones do so silently.
-/

namespace Recompile.Toml

/-- The digits without the underscores between them, if there are digits and nothing else. -/
def ungroup? (isDigit : Char → Bool) : List Char → Option (List Char)
  | [] => none
  | [c] => if isDigit c then some [c] else none
  | c :: '_' :: rest => if isDigit c then (ungroup? isDigit rest).map (c :: ·) else none
  | c :: rest => if isDigit c then (ungroup? isDigit rest).map (c :: ·) else none

/-- Whether a character is a digit to a base of at most sixteen. -/
def isDigitTo (base : Nat) (c : Char) : Bool :=
  match Bytes.hexValue? c with
  | some value => value < base
  | none => false

/-- The number that digits stand for. -/
def ofDigits (base : Nat) (digits : List Char) : Nat :=
  digits.foldl (fun n c => base * n + (Bytes.hexValue? c).getD 0) 0

/-- The digits of the integral part of a decimal number; it starts with zero only if it is zero. -/
def wholeDigits? (cs : List Char) : Option (List Char) :=
  match ungroup? Char.isDigit cs with
  | some ('0' :: _ :: _) => none
  | digits => digits

/-- The integer, if it has 64 bits. -/
def integer? (n : Int) : Option Toml :=
  if -9223372036854775808 ≤ n ∧ n < 9223372036854775808 then some (.integer n) else none

/-- The integer that digits to a base stand for. -/
def basedInteger? (base : Nat) (cs : List Char) : Option Toml := do
  integer? (ofDigits base (← ungroup? (isDigitTo base) cs))

/-- The exponent that a number ends with. -/
def exponent? : List Char → Option Int
  | '-' :: cs => (ungroup? Char.isDigit cs).map fun digits => -(ofDigits 10 digits : Int)
  | '+' :: cs => (ungroup? Char.isDigit cs).map fun digits => (ofDigits 10 digits : Int)
  | cs => (ungroup? Char.isDigit cs).map fun digits => (ofDigits 10 digits : Int)

/-- The double nearest to a decimal number, unless it is positive infinity. -/
def float? (negative : Bool) (whole fraction : List Char) (exponent : Int) : Option Toml :=
  let value :=
    Decimal.nearest negative (ofDigits 10 (whole ++ fraction)) (exponent - fraction.length)
  if value = .infinity false then none else some (.float value)

/-- Whether a character starts the exponent of a number. -/
def startsExponent (c : Char) : Bool := c = 'e' || c = 'E'

/-- The decimal number that a token without its sign stands for. -/
def decimal? (negative : Bool) (cs : List Char) : Option Toml := do
  let whole ← wholeDigits? (cs.takeWhile fun c => c ≠ '.' && !startsExponent c)
  match cs.dropWhile fun c => c ≠ '.' && !startsExponent c with
  | [] =>
    let magnitude : Int := ofDigits 10 whole
    integer? (if negative then -magnitude else magnitude)
  | '.' :: rest =>
    let fraction ← ungroup? Char.isDigit (rest.takeWhile fun c => !startsExponent c)
    match rest.dropWhile fun c => !startsExponent c with
    | [] => float? negative whole fraction 0
    | _ :: rest => float? negative whole fraction (← exponent? rest)
  | _ :: rest => float? negative whole [] (← exponent? rest)

/-- The number that a token without its sign stands for, words included. -/
def signed? (negative : Bool) : List Char → Option Toml
  | ['i', 'n', 'f'] => some (.float (.infinity negative))
  | ['n', 'a', 'n'] => some (.float (.nan negative))
  | cs => decimal? negative cs

/-- The number or truth value that a token stands for. -/
def ofToken? : List Char → Option Toml
  | ['t', 'r', 'u', 'e'] => some (.boolean true)
  | ['f', 'a', 'l', 's', 'e'] => some (.boolean false)
  | '0' :: 'x' :: cs => basedInteger? 16 cs
  | '0' :: 'o' :: cs => basedInteger? 8 cs
  | '0' :: 'b' :: cs => basedInteger? 2 cs
  | '-' :: cs => signed? true cs
  | '+' :: cs => signed? false cs
  | cs => signed? false cs

/-- Whether a character may stand in a number or a word. -/
def isTokenChar (c : Char) : Bool :=
  c.isAlphanum || c = '+' || c = '-' || c = '.' || c = '_'

/-- A moment, a number or a truth value. -/
def readScalar (cs : List Char) : Option (Toml × List Char) :=
  match readMoment cs with
  | some (found, rest) => some (.moment found, rest)
  | none => (ofToken? (cs.takeWhile isTokenChar)).map fun value => (value, cs.dropWhile isTokenChar)

end Recompile.Toml
