import Recompile.Glob.Regular

/-!
# File patterns

A pattern is a list of tokens.  What it matches is said by a regular expression over the bytes of a
path (`Glob.regular`): a question mark is one byte and a star any number of bytes, in both cases
other than slashes; two stars that make up a whole component go across directories; a class is one
byte out of a set; and a group is one of its branches.

Beyond the regular expression there is one rule.  A path whose last component is two dots names a
directory, so it has no file name that a pattern could ask for by its ending
(`Glob.asksForEnding`).
-/

namespace Recompile

namespace Glob

/-- A part of a pattern. -/
inductive Token where
  /-- A character that stands for itself. -/
  | char (c : Char)
  /-- One byte other than a slash. -/
  | one
  /-- Any number of bytes other than slashes. -/
  | many
  /-- At the start of a pattern or branch: any directories. -/
  | leading
  /-- Between two components: a slash, or any directories between slashes. -/
  | between
  /-- At the end: everything below a directory. -/
  | beneath
  /-- One byte of a class, given by the characters at the ends of its ranges. -/
  | oneOf (negated : Bool) (ranges : List (Char × Char))
  /-- One of several branches. -/
  | group (branches : List (List Token))

end Glob

/-- A file pattern. -/
structure Glob where
  /-- Its parts. -/
  tokens : List Glob.Token

namespace Glob

/-! ### The regular expression -/

/-- The byte that separates components. -/
def slash : UInt8 := 0x2F

/-- A slash. -/
def slashExpr : Regular := .byte (.single slash)

/-- Any bytes. -/
def anything : Regular := .star (.byte .all)

/-- The ranges of bytes of a range of characters.  Of characters with several bytes every byte
stands for itself, except that the last byte of the first and the first byte of the last span a
range. -/
def byteRanges (range : Char × Char) : List (UInt8 × UInt8) :=
  let first := Bytes.ofText (String.singleton range.1)
  let last := Bytes.ofText (String.singleton range.2)
  if range.1 = range.2 then first.map fun b => (b, b)
  else
    (first.dropLast.map fun b => (b, b)) ++ [(first.getLast?.getD 0, last.head?.getD 0)]
      ++ last.tail.map fun b => (b, b)

/-- One expression after another, where either may be absent. -/
def joined : Option Regular → Option Regular → Option Regular
  | none, second => second
  | first, none => first
  | some first, some second => some (.seq first second)

/-- One of several expressions, absent if there is none. -/
def oneOfMany : List Regular → Option Regular
  | [] => none
  | [only] => some only
  | first :: rest =>
    match oneOfMany rest with
    | some others => some (.alt first others)
    | none => some first

mutual

/-- The expression of a token; a group whose branches are all empty has none. -/
def Token.regular? : Token → Option Regular
  | .char c => some (.ofBytes (Bytes.ofText (String.singleton c)))
  | .one => some (.byte (.except slash))
  | .many => some (.star (.byte (.except slash)))
  | .leading => some (.alt .empty (.alt slashExpr (.seq anything slashExpr)))
  | .between => some (.alt slashExpr (.seq slashExpr (.seq anything slashExpr)))
  | .beneath => some (.seq slashExpr anything)
  | .oneOf negated ranges => some (.byte ⟨negated, ranges.flatMap byteRanges⟩)
  | .group branches => oneOfMany (branchExprs branches)

/-- The expression of tokens one after the other, absent if there are none that have one. -/
def regularOf? : List Token → Option Regular
  | [] => none
  | token :: rest => joined token.regular? (regularOf? rest)

/-- The expressions of branches; empty branches are dropped. -/
def branchExprs : List (List Token) → List Regular
  | [] => []
  | branch :: rest =>
    match regularOf? branch with
    | some expression => expression :: branchExprs rest
    | none => branchExprs rest

end

/-- The expression of a pattern.  Two stars alone match everything. -/
def regular (glob : Glob) : Regular :=
  match glob.tokens with
  | [.leading] => anything
  | tokens => (regularOf? tokens).getD .empty

/-! ### Matching -/

/-- Whether a token is a character that stands for itself. -/
def Token.isChar : Token → Bool
  | char _ => true
  | _ => false

/-- Whether a token is a certain character. -/
def Token.isExactly (c : Char) : Token → Bool
  | char other => other = c
  | _ => false

/-- Whether a pattern spells out a whole path, or the last components of one. -/
def isSpelledOut : List Token → Bool
  | .leading :: rest => rest.all Token.isChar && rest.any (Token.isExactly '/')
  | tokens => tokens.all Token.isChar

/-- Whether a pattern asks for file names with nothing after their last dot. -/
def asksForEnding (glob : Glob) : Bool :=
  !isSpelledOut glob.tokens && glob.tokens.getLast?.any (Token.isExactly '.')

/-- Whether the last component of a path is two dots. -/
def endsInParent (path : Bytes) : Bool :=
  path.reverse.takeWhile (· ≠ slash) = Bytes.ofText ".."

/-- Whether a path matches a pattern. -/
def accepts (glob : Glob) (path : String) : Bool :=
  let bytes := Bytes.ofText path
  glob.regular.accepts bytes && !(glob.asksForEnding && endsInParent bytes)

end Glob

end Recompile
