import Recompile.Toml.Quote

/-!
# Keys

A key is one or more parts with dots between them.  A part is a word of letters, digits, dashes and
underscores, or a string of one of the two short forms.
-/

namespace Recompile.Toml

/-- A key: the tables it goes through, and the name under which it ends. -/
structure Key where
  /-- The parts before the last. -/
  parents : List String
  /-- The last part. -/
  last : String
deriving DecidableEq, Inhabited

/-- Whether a character may stand in a part that is not quoted. -/
def isBare (c : Char) : Bool :=
  c.isAlphanum || c = '-' || c = '_'

/-- One part of a key. -/
def readPart : List Char → Option (String × List Char)
  | '"' :: rest => (readBasic rest).map fun (cs, rest) => (String.ofList cs, rest)
  | '\'' :: rest => (readLiteral rest).map fun (cs, rest) => (String.ofList cs, rest)
  | cs =>
    let word := cs.takeWhile isBare
    if word.isEmpty then none else some (String.ofList word, cs.dropWhile isBare)

/-- Documents may nest up to this depth: keys have so many parts, values so many levels. -/
def maxDepth : Nat := 79

/-- A key of at most so many parts, and the blanks around it. -/
def readKeyUpTo : Nat → List Char → Option (Key × List Char)
  | 0, _ => none
  | parts + 1, cs => do
    let (part, rest) ← readPart (skipSpace cs)
    match skipSpace rest with
    | '.' :: rest =>
      let (key, rest) ← readKeyUpTo parts rest
      return ({ key with parents := part :: key.parents }, rest)
    | rest => return (⟨[], part⟩, rest)

/-- A key and the blanks around it. -/
def readKey (cs : List Char) : Option (Key × List Char) :=
  readKeyUpTo maxDepth cs

end Recompile.Toml
