/-!
# Bytes

Byte strings are lists of bytes, so that formats can be read and written by recursion on them.
This file gives the views that the formats share: the UTF-8 bytes of a text (`Bytes.ofText`, read
back by `Bytes.text?`), the little-endian bytes of a number (`Bytes.littleEndian`, read back by
`Bytes.toNat`), and lower-case hexadecimal text (`Bytes.hex`, read back by `Bytes.ofHex?`).
-/

namespace Recompile

/-- A byte string. -/
abbrev Bytes := List UInt8

namespace Bytes

/-! ### Text -/

/-- The UTF-8 bytes of a text. -/
def ofText (text : String) : Bytes :=
  text.toByteArray.data.toList

/-- The text that a byte string encodes, if it is valid UTF-8. -/
def text? (bytes : Bytes) : Option String :=
  String.fromUTF8? ⟨bytes.toArray⟩

/-- The bytes of a text read back as that text. -/
theorem text?_ofText (text : String) : text? (ofText text) = some text := by
  have valid : (ByteArray.mk text.toByteArray.data).IsValidUTF8 := text.isValidUTF8
  simp only [text?, ofText, Array.toArray_toList, String.fromUTF8?, valid, ↓reduceDIte]
  rfl

/-- Texts with the same bytes are the same text. -/
theorem ofText_inj {a b : String} (h : ofText a = ofText b) : a = b := by
  have := congrArg text? h
  simpa only [text?_ofText, Option.some.injEq] using this

/-! ### Numbers -/

/-- The `width` lowest bytes of a number, lowest first. -/
def littleEndian : Nat → Nat → Bytes
  | 0, _ => []
  | width + 1, n => UInt8.ofNat n :: littleEndian width (n / 256)

/-- The number that little-endian bytes stand for. -/
def toNat : Bytes → Nat
  | [] => 0
  | byte :: rest => byte.toNat + 256 * toNat rest

/-- A little-endian number takes exactly its width. -/
@[simp] theorem length_littleEndian (width n : Nat) : (littleEndian width n).length = width := by
  induction width generalizing n with
  | zero => rfl
  | succ width ih => simp [littleEndian, ih]

/-- Little-endian bytes keep the number modulo the range of their width. -/
theorem toNat_littleEndian (width n : Nat) : toNat (littleEndian width n) = n % Nat.pow 256 width := by
  induction width generalizing n with
  | zero => simp [littleEndian, toNat, Nat.mod_one]
  | succ width ih =>
    have split : Nat.pow 256 (width + 1) = 256 * Nat.pow 256 width := Nat.mul_comm _ _
    rw [littleEndian, toNat, ih, split, Nat.mod_mul]
    rfl

/-! ### Hexadecimal text -/

/-- The two digits of one byte, high half first. -/
def hexPair (byte : UInt8) : List Char :=
  [Nat.digitChar (byte.toNat / 16), Nat.digitChar (byte.toNat % 16)]

/-- The bytes as lower-case hexadecimal text. -/
def hex (bytes : Bytes) : String :=
  String.ofList (bytes.flatMap hexPair)

/-- The value of a hexadecimal digit of either case. -/
def hexValue? (c : Char) : Option Nat :=
  if '0' ≤ c ∧ c ≤ '9' then some (c.toNat - 48)
  else if 'a' ≤ c ∧ c ≤ 'f' then some (c.toNat - 87)
  else if 'A' ≤ c ∧ c ≤ 'F' then some (c.toNat - 55)
  else none

/-- The bytes that pairs of hexadecimal digits stand for. -/
def ofHexChars? : List Char → Option Bytes
  | [] => some []
  | high :: low :: rest => do
    let h ← hexValue? high
    let l ← hexValue? low
    let bytes ← ofHexChars? rest
    return UInt8.ofNat (16 * h + l) :: bytes
  | [_] => none

/-- The bytes that a hexadecimal text stands for. -/
def ofHex? (text : String) : Option Bytes :=
  ofHexChars? text.toList

end Bytes

end Recompile
