import Recompile.Bytes
import Recompile.Toml.Blank

/-!
# Strings in documents

Strings come in four forms: between quotes, with escapes, or between apostrophes, without; and both
with the delimiter three times, in which case line ends may stand in the string.  In the long forms
up to two delimiters may stand right before the closing three.
-/

namespace Recompile.Toml

/-- The character of a code point, unless it is half of a surrogate pair or too large. -/
def charOf? (n : Nat) : Option Char :=
  if n < 0xD800 ∨ (0xDFFF < n ∧ n < 0x110000) then some (Char.ofNat n) else none

/-- The character whose code point hexadecimal digits name. -/
def charOfHex? (digits : List Char) : Option Char := do
  let values ← digits.mapM Bytes.hexValue?
  charOf? (values.foldl (fun n digit => 16 * n + digit) 0)

/-- The character that a short escape stands for. -/
def shortEscape? : Char → Option Char
  | 'b' => some '\x08'
  | 't' => some '\t'
  | 'n' => some '\n'
  | 'f' => some '\x0c'
  | 'r' => some '\r'
  | '"' => some '"'
  | '\\' => some '\\'
  | _ => none

/-- A character put before what was read of the rest of a string. -/
def consRead (c : Option Char) (read : Option (List Char × List Char)) :
    Option (List Char × List Char) := do
  let c ← c
  let (cs, rest) ← read
  return (c :: cs, rest)

/-- A string between quotes, after the opening one. -/
def readBasic : List Char → Option (List Char × List Char)
  | [] => none
  | '"' :: rest => some ([], rest)
  | '\\' :: 'u' :: a :: b :: c :: d :: rest => consRead (charOfHex? [a, b, c, d]) (readBasic rest)
  | '\\' :: 'U' :: a :: b :: c :: d :: e :: f :: g :: h :: rest =>
    consRead (charOfHex? [a, b, c, d, e, f, g, h]) (readBasic rest)
  | '\\' :: c :: rest => consRead (shortEscape? c) (readBasic rest)
  | c :: rest => if isPlain c ∧ c ≠ '\\' then consRead (some c) (readBasic rest) else none

/-- A string between apostrophes, after the opening one. -/
def readLiteral : List Char → Option (List Char × List Char)
  | [] => none
  | '\'' :: rest => some ([], rest)
  | c :: rest => if isPlain c then consRead (some c) (readLiteral rest) else none

/-- The delimiters, up to two, that still belong to a string after three of them. -/
def closing (delimiter : Char) : List Char → List Char × List Char
  | [] => ([], [])
  | [c] => if c = delimiter then ([c], []) else ([], [c])
  | c :: d :: rest =>
    if c = delimiter ∧ d = delimiter then ([c, d], rest)
    else if c = delimiter then ([c], d :: rest)
    else ([], c :: d :: rest)

/-- A string between three quotes, after the opening ones.  A backslash at the end of a line takes
away the blanks and line ends that follow; `skipping` says that this is going on. -/
def readLongBasic : Bool → List Char → Option (List Char × List Char)
  | _, [] => none
  | _, '"' :: '"' :: '"' :: rest => some (closing '"' rest)
  | skipping, '\n' :: rest =>
    if skipping then readLongBasic true rest else consRead (some '\n') (readLongBasic false rest)
  | skipping, '\r' :: '\n' :: rest =>
    if skipping then readLongBasic true rest else consRead (some '\n') (readLongBasic false rest)
  | _, '\\' :: 'u' :: a :: b :: c :: d :: rest =>
    consRead (charOfHex? [a, b, c, d]) (readLongBasic false rest)
  | _, '\\' :: 'U' :: a :: b :: c :: d :: e :: f :: g :: h :: rest =>
    consRead (charOfHex? [a, b, c, d, e, f, g, h]) (readLongBasic false rest)
  | _, '\\' :: c :: rest =>
    if (lineBreak? (skipSpace (c :: rest))).isSome then readLongBasic true (c :: rest)
    else consRead (shortEscape? c) (readLongBasic false rest)
  | skipping, c :: rest =>
    if skipping ∧ (c = ' ' ∨ c = '\t') then readLongBasic true rest
    else if isPlain c ∧ c ≠ '\\' then consRead (some c) (readLongBasic false rest)
    else none

/-- A string between three apostrophes, after the opening ones. -/
def readLongLiteral : List Char → Option (List Char × List Char)
  | [] => none
  | '\'' :: '\'' :: '\'' :: rest => some (closing '\'' rest)
  | '\n' :: rest => consRead (some '\n') (readLongLiteral rest)
  | '\r' :: '\n' :: rest => consRead (some '\n') (readLongLiteral rest)
  | c :: rest => if isPlain c then consRead (some c) (readLongLiteral rest) else none

/-- What follows the opening delimiter of a long form: a line end right after it does not belong to
the string. -/
def afterOpening (cs : List Char) : List Char :=
  (lineBreak? cs).getD cs

/-- A string in any form; `none` if no string starts here. -/
def readText : List Char → Option (String × List Char)
  | '"' :: '"' :: '"' :: rest =>
    (readLongBasic false (afterOpening rest)).map fun (cs, rest) => (String.ofList cs, rest)
  | '"' :: rest => (readBasic rest).map fun (cs, rest) => (String.ofList cs, rest)
  | '\'' :: '\'' :: '\'' :: rest =>
    (readLongLiteral (afterOpening rest)).map fun (cs, rest) => (String.ofList cs, rest)
  | '\'' :: rest => (readLiteral rest).map fun (cs, rest) => (String.ofList cs, rest)
  | _ => none

end Recompile.Toml
