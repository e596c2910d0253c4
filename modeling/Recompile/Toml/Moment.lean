import Recompile.Bytes

/-!
# Dates and times

A moment is a date, a time of day, or both, and in the last case it may say how far the time is from
universal time.  Moments have one written form (`Moment.text`); reading also accepts a small `t` or
a blank between date and time, a small `z`, and fractions of a second with more than nine digits, of
which the first nine count.
-/

namespace Recompile.Toml

/-- A day of the calendar. -/
structure Date where
  /-- The year, of four digits. -/
  year : Nat
  /-- The month, from one. -/
  month : Nat
  /-- The day of the month, from one. -/
  day : Nat
deriving DecidableEq, Inhabited

/-- A time of day. -/
structure Time where
  /-- The hour. -/
  hour : Nat
  /-- The minute. -/
  minute : Nat
  /-- The second; sixty stands for a leap second. -/
  second : Nat
  /-- The billionths of a second. -/
  nanosecond : Nat
deriving DecidableEq, Inhabited

/-- The distance of a time from universal time. -/
inductive Offset where
  /-- The time is universal time. -/
  | universal
  /-- The time is ahead by so many minutes. -/
  | minutes (ahead : Int)
deriving DecidableEq

/-- A date, a time, or both. -/
inductive Moment where
  /-- A date. -/
  | day (date : Date)
  /-- A time of day. -/
  | clock (time : Time)
  /-- A date and a time, wherever that may be. -/
  | civil (date : Date) (time : Time)
  /-- A date and a time at a known distance from universal time. -/
  | zoned (date : Date) (time : Time) (offset : Offset)
deriving DecidableEq

/-! ### Writing -/

/-- A number with zeros in front of it, up to a width. -/
def padded (width n : Nat) : List Char :=
  let digits := Nat.toDigits 10 n
  List.replicate (width - digits.length) '0' ++ digits

/-- A date as text. -/
def Date.chars (date : Date) : List Char :=
  padded 4 date.year ++ '-' :: padded 2 date.month ++ '-' :: padded 2 date.day

/-- A time as text; the fraction has no zeros at its end. -/
def Time.chars (time : Time) : List Char :=
  let fraction := ((padded 9 time.nanosecond).reverse.dropWhile (· = '0')).reverse
  padded 2 time.hour ++ ':' :: padded 2 time.minute ++ ':' :: padded 2 time.second
    ++ if fraction.isEmpty then [] else '.' :: fraction

/-- An offset as text. -/
def Offset.chars : Offset → List Char
  | universal => ['Z']
  | minutes ahead =>
    (if ahead < 0 then '-' else '+') :: padded 2 (ahead.natAbs / 60)
      ++ ':' :: padded 2 (ahead.natAbs % 60)

/-- A moment as text. -/
def Moment.text : Moment → String
  | day date => String.ofList date.chars
  | clock time => String.ofList time.chars
  | civil date time => String.ofList (date.chars ++ 'T' :: time.chars)
  | zoned date time offset => String.ofList (date.chars ++ 'T' :: time.chars ++ offset.chars)

/-! ### Reading -/

/-- Whether a year has a leap day. -/
def isLeapYear (year : Nat) : Bool :=
  year % 4 = 0 && (year % 100 ≠ 0 || year % 400 = 0)

/-- The number of days of a month. -/
def daysIn (year month : Nat) : Nat :=
  if month = 2 then if isLeapYear year then 29 else 28
  else if month ∈ [4, 6, 9, 11] then 30
  else 31

/-- Whether there is such a day. -/
def Date.isValid (date : Date) : Bool :=
  1 ≤ date.month && date.month ≤ 12 && 1 ≤ date.day && date.day ≤ daysIn date.year date.month

/-- Whether there is such a time of day. -/
def Time.isValid (time : Time) : Bool :=
  time.hour ≤ 23 && time.minute ≤ 59 && time.second ≤ 60

/-- The value of two decimal digits. -/
def twoDigits? (a b : Char) : Option Nat :=
  if a.isDigit && b.isDigit then some (10 * (a.toNat - 48) + (b.toNat - 48)) else none

/-- A date and what follows it. -/
def readDate : List Char → Option (Date × List Char)
  | a :: b :: c :: d :: '-' :: e :: f :: '-' :: g :: h :: rest => do
    let date : Date :=
      { year := 100 * (← twoDigits? a b) + (← twoDigits? c d), month := ← twoDigits? e f,
        day := ← twoDigits? g h }
    if date.isValid then some (date, rest) else none
  | _ => none

/-- The billionths that the digits of a fraction stand for. -/
def billionths (digits : List Char) : Nat :=
  (digits.take 9).foldl (fun n c => 10 * n + (c.toNat - 48)) 0 * Nat.pow 10 (9 - digits.length)

/-- The fraction of a second, if there is one, and what follows it. -/
def readBillionths : List Char → Option (Nat × List Char)
  | '.' :: rest =>
    let digits := rest.takeWhile Char.isDigit
    if digits.isEmpty then none else some (billionths digits, rest.dropWhile Char.isDigit)
  | rest => some (0, rest)

/-- A time and what follows it. -/
def readTime : List Char → Option (Time × List Char)
  | a :: b :: ':' :: c :: d :: ':' :: e :: f :: rest => do
    let hour ← twoDigits? a b
    let minute ← twoDigits? c d
    let second ← twoDigits? e f
    let (nanosecond, rest) ← readBillionths rest
    let time : Time := { hour, minute, second, nanosecond }
    if time.isValid then some (time, rest) else none
  | _ => none

/-- The minutes of an offset of less than a day, given as hours and minutes, and what follows. -/
def readHours : List Char → Option (Nat × List Char)
  | a :: b :: ':' :: c :: d :: rest => do
    let hours ← twoDigits? a b
    let minutes ← twoDigits? c d
    if hours ≤ 23 && minutes ≤ 59 then some (60 * hours + minutes, rest) else none
  | _ => none

/-- An offset, if there is one, and what follows it. -/
def readOffset : List Char → Option (Option Offset × List Char)
  | 'Z' :: rest => some (some .universal, rest)
  | 'z' :: rest => some (some .universal, rest)
  | '+' :: rest =>
    (readHours rest).map fun (minutes, rest) => (some (.minutes minutes), rest)
  | '-' :: rest =>
    (readHours rest).map fun (minutes, rest) => (some (.minutes (-(minutes : Int))), rest)
  | rest => some (none, rest)

/-- Whether a time follows a date: a letter or a blank stands between them, and the time starts with
a digit. -/
def timeFollows : List Char → Bool
  | delimiter :: c :: _ => (delimiter = 'T' || delimiter = 't' || delimiter = ' ') && c.isDigit
  | _ => false

/-- A moment and what follows it. -/
def readMoment (cs : List Char) : Option (Moment × List Char) :=
  if cs.drop 2 |>.head? |> (· = some ':') then
    (readTime cs).map fun (time, rest) => (.clock time, rest)
  else do
    let (date, rest) ← readDate cs
    if timeFollows rest then
      let (time, rest) ← readTime rest.tail
      match ← readOffset rest with
      | (some offset, rest) => return (.zoned date time offset, rest)
      | (none, rest) => return (.civil date time, rest)
    else return (.day date, rest)

/-- The moment that a whole text stands for. -/
def Moment.ofText? (text : String) : Option Moment :=
  match readMoment text.toList with
  | some (moment, []) => some moment
  | _ => none

end Recompile.Toml
