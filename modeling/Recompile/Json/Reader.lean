import Recompile.Json.Basic
import Recompile.Bytes

/-!
# Reading JSON

The reader is strict: no comments, no trailing commas, no leading zeros, no raw controls in strings,
and nothing but blanks after the value.  Its steps take the rest of the document and return what
they read with what follows.
-/

namespace Recompile.Json

/-! ### Blanks and numbers -/

/-- The four blanks that JSON allows between tokens. -/
def isSpace (c : Char) : Bool :=
  c = ' ' || c = '\n' || c = '\t' || c = '\r'

/-- The document without the blanks in front. -/
def skipSpace (cs : List Char) : List Char :=
  cs.dropWhile isSpace

/-- The number that decimal digits stand for. -/
def ofDigits (digits : List Char) : Nat :=
  digits.foldl (fun n c => 10 * n + (c.toNat - 48)) 0

/-- The integer part of a number: a single zero, or digits that start with another one. -/
def readWhole : List Char → Option (List Char × List Char)
  | '0' :: rest => some (['0'], rest)
  | cs =>
    let digits := cs.takeWhile Char.isDigit
    if digits.isEmpty then none else some (digits, cs.dropWhile Char.isDigit)

/-- The fraction of a number, if there is one; it needs a digit. -/
def readFraction : List Char → Option (List Char × List Char)
  | '.' :: rest =>
    let digits := rest.takeWhile Char.isDigit
    if digits.isEmpty then none else some ('.' :: digits, rest.dropWhile Char.isDigit)
  | cs => some ([], cs)

/-- The sign of an exponent, if there is one. -/
def readExponentSign : List Char → List Char × List Char
  | '+' :: rest => (['+'], rest)
  | '-' :: rest => (['-'], rest)
  | cs => ([], cs)

/-- The exponent of a number, if there is one; it needs a digit. -/
def readExponent (cs : List Char) : Option (List Char × List Char) :=
  match cs with
  | [] => some ([], [])
  | c :: rest =>
    if c = 'e' ∨ c = 'E' then
      let (sign, rest) := readExponentSign rest
      let digits := rest.takeWhile Char.isDigit
      if digits.isEmpty then none
      else some (c :: sign ++ digits, rest.dropWhile Char.isDigit)
    else some ([], cs)

/-- A number without its sign; `negative` says that a minus sign was read before it. -/
def readUnsigned (negative : Bool) (cs : List Char) : Option (Json × List Char) := do
  let (whole, rest) ← readWhole cs
  let (fraction, rest) ← readFraction rest
  let (exponent, rest) ← readExponent rest
  let magnitude := ofDigits whole
  if fraction.isEmpty && exponent.isEmpty && !(negative && magnitude == 0) then
    return (.int (if negative then -(magnitude : Int) else magnitude), rest)
  else
    let sign := if negative then ['-'] else []
    return (.real (String.ofList (sign ++ whole ++ fraction ++ exponent)), rest)

/-- A number. -/
def readNumber : List Char → Option (Json × List Char)
  | '-' :: rest => readUnsigned true rest
  | cs => readUnsigned false cs

/-! ### Strings -/

/-- A part of a string literal: a character, or an escaped 16-bit unit. -/
inductive Piece where
  /-- A character, as it is or by a short escape. -/
  | char (c : Char)
  /-- The unit that four hexadecimal digits name. -/
  | unit (value : Nat)

/-- The unit that four hexadecimal digits name. -/
def unit? (a b c d : Char) : Option Nat := do
  let a ← Bytes.hexValue? a
  let b ← Bytes.hexValue? b
  let c ← Bytes.hexValue? c
  let d ← Bytes.hexValue? d
  return ((a * 16 + b) * 16 + c) * 16 + d

/-- The character that a short escape stands for. -/
def shortEscape? : Char → Option Char
  | '"' => some '"'
  | '\\' => some '\\'
  | '/' => some '/'
  | 'b' => some '\x08'
  | 'f' => some '\x0c'
  | 'n' => some '\n'
  | 'r' => some '\r'
  | 't' => some '\t'
  | _ => none

/-- A piece put before those of the rest of a literal. -/
def consPiece (piece : Piece) (read : Option (List Piece × List Char)) :
    Option (List Piece × List Char) :=
  read.map fun (pieces, rest) => (piece :: pieces, rest)

/-- The pieces of a string literal up to its closing quote. -/
def readPieces : List Char → Option (List Piece × List Char)
  | [] => none
  | '"' :: rest => some ([], rest)
  | '\\' :: 'u' :: a :: b :: c :: d :: rest =>
    match unit? a b c d with
    | some value => consPiece (.unit value) (readPieces rest)
    | none => none
  | '\\' :: c :: rest =>
    match shortEscape? c with
    | some char => consPiece (.char char) (readPieces rest)
    | none => none
  | c :: rest => if c.toNat < 0x20 ∨ c = '\\' then none else consPiece (.char c) (readPieces rest)

/-- Whether a unit is the first of a surrogate pair. -/
def isHighSurrogate (unit : Nat) : Bool := 0xD800 ≤ unit && unit < 0xDC00

/-- Whether a unit is the second of a surrogate pair. -/
def isLowSurrogate (unit : Nat) : Bool := 0xDC00 ≤ unit && unit < 0xE000

/-- The text of the pieces, unless a surrogate lacks its partner. -/
def assemble : List Piece → Option (List Char)
  | [] => some []
  | .char c :: rest => (assemble rest).map (c :: ·)
  | [.unit value] =>
    if isHighSurrogate value || isLowSurrogate value then none else some [Char.ofNat value]
  | .unit value :: .unit low :: rest =>
    if isHighSurrogate value then
      if isLowSurrogate low then
        (assemble rest).map
          (Char.ofNat (0x10000 + (value - 0xD800) * 0x400 + (low - 0xDC00)) :: ·)
      else none
    else if isLowSurrogate value then none
    else (assemble (.unit low :: rest)).map (Char.ofNat value :: ·)
  | .unit value :: .char c :: rest =>
    if isHighSurrogate value || isLowSurrogate value then none
    else (assemble rest).map fun cs => Char.ofNat value :: c :: cs

/-- The text of a string literal after its opening quote; the inner `none` is a literal that denotes
no text. -/
def readText (cs : List Char) : Option (Option String × List Char) :=
  (readPieces cs).map fun (pieces, rest) => ((assemble pieces).map String.ofList, rest)

/-! ### Values -/

mutual

/-- A value, after blanks. -/
def readValue : Nat → List Char → Option (Json × List Char)
  | 0, _ => none
  | fuel + 1, cs =>
    match skipSpace cs with
    | 'n' :: 'u' :: 'l' :: 'l' :: rest => some (.null, rest)
    | 't' :: 'r' :: 'u' :: 'e' :: rest => some (.bool true, rest)
    | 'f' :: 'a' :: 'l' :: 's' :: 'e' :: rest => some (.bool false, rest)
    | '"' :: rest =>
      match readText rest with
      | some (some content, rest) => some (.text content, rest)
      | some (none, rest) => some (.unpaired, rest)
      | none => none
    | '[' :: rest =>
      match skipSpace rest with
      | ']' :: rest => some (.array [], rest)
      | rest => (readItems fuel rest).map fun (items, rest) => (.array items, rest)
    | '\x7b' :: rest =>
      match skipSpace rest with
      | '\x7d' :: rest => some (.object [], rest)
      | rest => (readMembers fuel rest).map fun (members, rest) => (.object members, rest)
    | cs => readNumber cs

/-- One or more items, up to the closing bracket. -/
def readItems : Nat → List Char → Option (List Json × List Char)
  | 0, _ => none
  | fuel + 1, cs =>
    match readValue fuel cs with
    | none => none
    | some (item, rest) =>
      match skipSpace rest with
      | ',' :: rest => (readItems fuel rest).map fun (items, rest) => (item :: items, rest)
      | ']' :: rest => some ([item], rest)
      | _ => none

/-- One or more members, up to the closing brace. -/
def readMembers : Nat → List Char → Option (List (Option String × Json) × List Char)
  | 0, _ => none
  | fuel + 1, cs =>
    match skipSpace cs with
    | '"' :: rest =>
      match readText rest with
      | none => none
      | some (key, rest) =>
        match skipSpace rest with
        | ':' :: rest =>
          match readValue fuel rest with
          | none => none
          | some (value, rest) =>
            match skipSpace rest with
            | ',' :: rest =>
              (readMembers fuel rest).map fun (members, rest) => ((key, value) :: members, rest)
            | '\x7d' :: rest => some ([(key, value)], rest)
            | _ => none
        | _ => none
    | _ => none

end

/-- The value of a whole document. -/
def read? (document : String) : Option Json :=
  let cs := document.toList
  -- Each step but every second one consumes a character, so this many steps suffice.
  match readValue (2 * cs.length + 2) cs with
  | some (value, rest) => if (skipSpace rest).isEmpty then some value else none
  | none => none

end Recompile.Json
