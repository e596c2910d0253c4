import Recompile.Digest.Xxh3

/-!
# Digests

A digest is a 16-byte fingerprint of some content.  Contents are digested whole (`Digest.ofBytes`)
or as a list of parts (`Digest.ofParts`); in the second case each part is preceded by its length, so
that the byte stream determines the parts (`framed`).
-/

namespace Recompile

/-- A fingerprint of 16 bytes. -/
structure Digest where
  /-- The bytes, the low ones of the hash first. -/
  bytes : Bytes
  /-- There are sixteen of them. -/
  length_bytes : bytes.length = 16
deriving DecidableEq

namespace Digest

/-- The digest whose bytes are all zero. -/
def zero : Digest := ⟨List.replicate 16 0, rfl⟩

instance : Inhabited Digest := ⟨zero⟩

/-- The digest of the given bytes, if there are sixteen of them. -/
def ofList? (bytes : Bytes) : Option Digest :=
  if h : bytes.length = 16 then some ⟨bytes, h⟩ else none

/-- The digest of a byte string. -/
def ofBytes (content : Bytes) : Digest :=
  let (low, high) := Xxh3.hash content
  ⟨Bytes.littleEndian 8 low.toNat ++ Bytes.littleEndian 8 high.toNat, by simp⟩

/-- The digest of a text. -/
def ofText (text : String) : Digest :=
  ofBytes (Bytes.ofText text)

/-- The byte stream of a list of parts: each part follows its length, written in eight bytes. -/
def framed (parts : List Bytes) : Bytes :=
  parts.flatMap fun part => Bytes.littleEndian 8 part.length ++ part

/-- The digest of a list of parts. -/
def ofParts (parts : List Bytes) : Digest :=
  ofBytes (framed parts)

/-- The 32 hexadecimal digits of a digest. -/
def hex (digest : Digest) : String :=
  Bytes.hex digest.bytes

/-- The digest that 32 hexadecimal digits stand for. -/
def ofHex? (text : String) : Option Digest :=
  Bytes.ofHex? text >>= ofList?

/-- The first two bytes in hexadecimal, as a short form for people. -/
def brief (digest : Digest) : String :=
  Bytes.hex (digest.bytes.take 2) ++ ".."

/-- Digests are ordered by their bytes. -/
instance : Ord Digest := ⟨compareOn bytes⟩

instance : ToString Digest := ⟨hex⟩

end Digest

end Recompile
