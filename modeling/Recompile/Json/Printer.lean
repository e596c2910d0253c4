import Recompile.Json.Basic

/-!
# Writing JSON

There are two layouts: `Json.compact` writes no blanks at all, and `Json.pretty` writes each item
and member on a line of its own, indented by two spaces per level, with `[]` and an empty pair of
braces for empty collections.  Both write strings the same way: only quotes, backslashes and
controls are escaped.
-/

namespace Recompile.Json

/-! ### Literals -/

/-- One character inside a string literal. -/
def escapedChar (c : Char) : List Char :=
  if c = '"' then ['\\', '"']
  else if c = '\\' then ['\\', '\\']
  else if c = '\x08' then ['\\', 'b']
  else if c = '\t' then ['\\', 't']
  else if c = '\n' then ['\\', 'n']
  else if c = '\x0c' then ['\\', 'f']
  else if c = '\r' then ['\\', 'r']
  else if c.toNat < 0x20 then
    ['\\', 'u', '0', '0', Nat.digitChar (c.toNat / 16), Nat.digitChar (c.toNat % 16)]
  else [c]

/-- A string literal. -/
def textChars (text : String) : List Char :=
  '"' :: text.toList.flatMap escapedChar ++ ['"']

/-- A string literal that denotes no text: half of a surrogate pair. -/
def unpairedChars : List Char :=
  ['"', '\\', 'u', 'd', '8', '0', '0', '"']

/-- A key, as a string literal. -/
def keyChars : Option String → List Char
  | some key => textChars key
  | none => unpairedChars

/-- An integer in decimal digits. -/
def intChars : Int → List Char
  | .ofNat n => Nat.toDigits 10 n
  | .negSucc n => '-' :: Nat.toDigits 10 (n + 1)

/-- A truth value. -/
def boolChars : Bool → List Char
  | true => ['t', 'r', 'u', 'e']
  | false => ['f', 'a', 'l', 's', 'e']

/-- The literal of nothing. -/
def nullChars : List Char := ['n', 'u', 'l', 'l']

/-! ### The compact layout -/

mutual

/-- A value without any blanks. -/
def compactChars : Json → List Char
  | .null => nullChars
  | .bool value => boolChars value
  | .int value => intChars value
  | .real literal => literal.toList
  | .text value => textChars value
  | .unpaired => unpairedChars
  | .array [] => ['[', ']']
  | .array (item :: items) => '[' :: compactChars item ++ compactItems items
  | .object [] => ['\x7b', '\x7d']
  | .object (member :: members) => '\x7b' :: compactMember member ++ compactMembers members
termination_by structural value => value

/-- The items after the first, up to the closing bracket. -/
def compactItems : List Json → List Char
  | [] => [']']
  | item :: items => ',' :: compactChars item ++ compactItems items
termination_by structural items => items

/-- A key and its value. -/
def compactMember : Option String × Json → List Char
  | (key, value) => keyChars key ++ ':' :: compactChars value
termination_by structural member => member

/-- The members after the first, up to the closing brace. -/
def compactMembers : List (Option String × Json) → List Char
  | [] => ['\x7d']
  | member :: members => ',' :: compactMember member ++ compactMembers members
termination_by structural members => members

end

/-- A value without any blanks, as text. -/
def compact (value : Json) : String :=
  String.ofList value.compactChars

/-! ### The indented layout -/

/-- The start of a new line at a level of nesting. -/
def newLine (level : Nat) : List Char :=
  '\n' :: List.replicate (2 * level) ' '

mutual

/-- A value in the indented layout, at a level of nesting. -/
def prettyChars (level : Nat) : Json → List Char
  | .null => nullChars
  | .bool value => boolChars value
  | .int value => intChars value
  | .real literal => literal.toList
  | .text value => textChars value
  | .unpaired => unpairedChars
  | .array [] => ['[', ']']
  | .array (item :: items) =>
    '[' :: newLine (level + 1) ++ prettyChars (level + 1) item ++ prettyItems level items
  | .object [] => ['\x7b', '\x7d']
  | .object (member :: members) =>
    '\x7b' :: newLine (level + 1) ++ prettyMember (level + 1) member ++ prettyMembers level members
termination_by structural value => value

/-- The items after the first, up to the closing bracket. -/
def prettyItems (level : Nat) : List Json → List Char
  | [] => newLine level ++ [']']
  | item :: items =>
    ',' :: newLine (level + 1) ++ prettyChars (level + 1) item ++ prettyItems level items
termination_by structural items => items

/-- A key and its value. -/
def prettyMember (level : Nat) : Option String × Json → List Char
  | (key, value) => keyChars key ++ ':' :: ' ' :: prettyChars level value
termination_by structural member => member

/-- The members after the first, up to the closing brace. -/
def prettyMembers (level : Nat) : List (Option String × Json) → List Char
  | [] => newLine level ++ ['\x7d']
  | member :: members =>
    ',' :: newLine (level + 1) ++ prettyMember (level + 1) member ++ prettyMembers level members
termination_by structural members => members

end

/-- A value in the indented layout, as text. -/
def pretty (value : Json) : String :=
  String.ofList (value.prettyChars 0)

end Recompile.Json
