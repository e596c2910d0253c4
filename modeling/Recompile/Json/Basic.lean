/-!
# JSON values

A JSON value as a document gives it: members keep their order and may repeat a key.  Two things that
a document can say have no place among the values the library works with, and are kept apart so that
they can be skipped: numbers that are not integers (`Json.real`), and string literals that denote no
text because they escape half of a surrogate pair (`Json.unpaired`, and a key that is `none`).
-/

namespace Recompile

/-- A JSON value. -/
inductive Json where
  /-- The literal of nothing. -/
  | null
  /-- A truth value. -/
  | bool (value : Bool)
  /-- A number written as an integer, except for negative zero. -/
  | int (value : Int)
  /-- A number with a fraction or an exponent, or negative zero, as it is written. -/
  | real (literal : String)
  /-- A string. -/
  | text (value : String)
  /-- A string literal that denotes no text. -/
  | unpaired
  /-- An array. -/
  | array (items : List Json)
  /-- An object: its members in order. -/
  | object (members : List (Option String × Json))
deriving Inhabited

namespace Json

/-- An object with the given keys. -/
def record (members : List (String × Json)) : Json :=
  .object (members.map fun member => (some member.1, member.2))

/-- The natural number as a JSON integer. -/
def nat (n : Nat) : Json := .int n

/-- The optional value, absent as `null`. -/
def orNull : Option Json → Json
  | some value => value
  | none => .null

/-- The value of a member, if an object has exactly one such key or the last of several. -/
def member? (name : String) : Json → Option Json
  | .object members => (members.reverse.find? fun member => member.1 = some name).map (·.2)
  | _ => none

/-- The text of a string. -/
def text? : Json → Option String
  | .text value => some value
  | _ => none

/-- The truth value. -/
def bool? : Json → Option Bool
  | .bool value => some value
  | _ => none

/-- The integer. -/
def int? : Json → Option Int
  | .int value => some value
  | _ => none

/-- The integer, if it is not negative. -/
def nat? : Json → Option Nat
  | .int (.ofNat value) => some value
  | _ => none

/-- The items of an array. -/
def items? : Json → Option (List Json)
  | .array items => some items
  | _ => none

end Json

end Recompile
