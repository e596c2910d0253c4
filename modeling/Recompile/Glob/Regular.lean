import Recompile.Bytes

/-!
# Regular expressions over bytes

File patterns are matched as regular expressions over the bytes of a path.  An expression is run by
partial derivatives: after a byte, what is left to match is one of finitely many expressions, and a
byte string matches if at its end one of them accepts the empty string.
-/

namespace Recompile

/-- A set of bytes: those in some ranges, or those in none of them. -/
structure ByteSet where
  /-- Whether the ranges say which bytes are not in the set. -/
  negated : Bool
  /-- The first and the last byte of each range. -/
  ranges : List (UInt8 × UInt8)
deriving DecidableEq

namespace ByteSet

/-- Whether a byte is in the set. -/
def contains (set : ByteSet) (byte : UInt8) : Bool :=
  set.negated != set.ranges.any fun range => range.1 ≤ byte && byte ≤ range.2

/-- Every byte. -/
def all : ByteSet := ⟨true, []⟩

/-- One byte. -/
def single (byte : UInt8) : ByteSet := ⟨false, [(byte, byte)]⟩

/-- Every byte but one. -/
def except (byte : UInt8) : ByteSet := ⟨true, [(byte, byte)]⟩

end ByteSet

/-- A regular expression over bytes. -/
inductive Regular where
  /-- The empty string. -/
  | empty
  /-- One byte of a set. -/
  | byte (set : ByteSet)
  /-- One after the other. -/
  | seq (first second : Regular)
  /-- One or the other. -/
  | alt (left right : Regular)
  /-- Any number of times. -/
  | star (inner : Regular)
deriving DecidableEq

namespace Regular

/-- The bytes one after the other. -/
def ofBytes : Bytes → Regular
  | [] => .empty
  | [b] => .byte (.single b)
  | b :: rest => .seq (.byte (.single b)) (ofBytes rest)

/-- Whether the empty string matches. -/
def acceptsEmpty : Regular → Bool
  | empty => true
  | byte _ => false
  | seq first second => first.acceptsEmpty && second.acceptsEmpty
  | alt left right => left.acceptsEmpty || right.acceptsEmpty
  | star _ => true

/-- One expression after another; nothing is put before the second if the first is empty. -/
def andThen : Regular → Regular → Regular
  | empty, second => second
  | first, second => seq first second

/-- What may be left to match after a byte. -/
def after (b : UInt8) : Regular → List Regular
  | empty => []
  | byte set => if set.contains b then [empty] else []
  | seq first second =>
    ((first.after b).map fun rest => rest.andThen second)
      ++ if first.acceptsEmpty then second.after b else []
  | alt left right => left.after b ++ right.after b
  | star inner => (inner.after b).map fun rest => rest.andThen (star inner)

/-- What may be left to match of several expressions after a byte, each once. -/
def step (states : List Regular) (b : UInt8) : List Regular :=
  (states.flatMap (after b)).eraseDups

/-- Whether a byte string matches. -/
def accepts (expression : Regular) (bytes : Bytes) : Bool :=
  (bytes.foldl step [expression]).any acceptsEmpty

end Regular

end Recompile
