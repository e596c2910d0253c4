/-!
# White space

The Unicode property `White_Space`: 25 code points, of which ten are ASCII or Latin-1.
-/

namespace Recompile.Text

/-- The ranges of code points with the property `White_Space`. -/
def blankRanges : List (Nat × Nat) :=
  [(0x09, 0x0D), (0x20, 0x20), (0x85, 0x85), (0xA0, 0xA0), (0x1680, 0x1680), (0x2000, 0x200A),
    (0x2028, 0x2029), (0x202F, 0x202F), (0x205F, 0x205F), (0x3000, 0x3000)]

/-- Whether a character is white space. -/
def isBlank (c : Char) : Bool :=
  blankRanges.any fun range => range.1 ≤ c.toNat && c.toNat ≤ range.2

/-- Whether a text has nothing but white space. -/
def isAllBlank (text : String) : Bool :=
  text.toList.all isBlank

/-- The property holds of 25 code points. -/
example : (blankRanges.map fun range => range.2 + 1 - range.1).sum = 25 := rfl

end Recompile.Text
