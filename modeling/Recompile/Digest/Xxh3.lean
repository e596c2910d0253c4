import Recompile.Bytes

/-!
# The XXH3 hash, 128 bits wide

The hash reads its input as little-endian words of 64 bits and mixes them with the words of a fixed
table, the key stream.  Inputs of up to 16 bytes, up to 128 bytes, up to 240 bytes and longer ones
are mixed in four different ways.  The result is a pair of words.  The seed is zero throughout.
-/

namespace Recompile.Xxh3

/-! ### Words -/

/-- The byte at a position, zero outside of the input. -/
def byteAt (input : Array UInt8) (i : Nat) : UInt64 :=
  (input.getD i 0).toUInt64

/-- The 32-bit little-endian word at a position. -/
def word32 (input : Array UInt8) (i : Nat) : UInt64 :=
  byteAt input i ||| (byteAt input (i + 1) <<< 8) ||| (byteAt input (i + 2) <<< 16)
    ||| (byteAt input (i + 3) <<< 24)

/-- The 64-bit little-endian word at a position. -/
def word64 (input : Array UInt8) (i : Nat) : UInt64 :=
  word32 input i ||| (word32 input (i + 4) <<< 32)

/-- The low half of a word. -/
def lowHalf (x : UInt64) : UInt64 := x &&& 0xFFFFFFFF

/-- A 32-bit word with its bytes in reverse order. -/
def swap32 (x : UInt64) : UInt64 :=
  let second : UInt64 := x >>> 8
  let third : UInt64 := x >>> 16
  let fourth : UInt64 := x >>> 24
  ((x &&& 0xFF) <<< 24) ||| ((second &&& 0xFF) <<< 16) ||| ((third &&& 0xFF) <<< 8)
    ||| (fourth &&& 0xFF)

/-- A 64-bit word with its bytes in reverse order. -/
def swap64 (x : UInt64) : UInt64 :=
  (swap32 (lowHalf x) <<< 32) ||| swap32 (x >>> 32)

/-- A 32-bit word turned left by 13 bits. -/
def turn13 (x : UInt64) : UInt64 :=
  lowHalf (x <<< 13) ||| (x >>> 19)

/-- The full product of two words, as its low and its high word. -/
def fullProduct (a b : UInt64) : UInt64 × UInt64 :=
  let product := a.toNat * b.toNat
  (UInt64.ofNat product, UInt64.ofNat (product / 18446744073709551616))

/-- The two words of the full product, combined. -/
def foldedProduct (a b : UInt64) : UInt64 :=
  let (low, high) := fullProduct a b
  low ^^^ high

/-! ### Constants -/

/-- The first 32-bit multiplier. -/
def prime32a : UInt64 := 0x9E3779B1

/-- The second 32-bit multiplier. -/
def prime32b : UInt64 := 0x85EBCA77

/-- The third 32-bit multiplier. -/
def prime32c : UInt64 := 0xC2B2AE3D

/-- The first 64-bit multiplier. -/
def prime64a : UInt64 := 0x9E3779B185EBCA87

/-- The second 64-bit multiplier. -/
def prime64b : UInt64 := 0xC2B2AE3D27D4EB4F

/-- The third 64-bit multiplier. -/
def prime64c : UInt64 := 0x165667B19E3779F9

/-- The fourth 64-bit multiplier. -/
def prime64d : UInt64 := 0x85EBCA77C2B2AE63

/-- The fifth 64-bit multiplier. -/
def prime64e : UInt64 := 0x27D4EB2F165667C5

/-- The multiplier of the short finishing mix. -/
def primeMixA : UInt64 := 0x165667919E3779F9

/-- The multiplier for inputs of four to eight bytes. -/
def primeMixB : UInt64 := 0x9FB21C651E98DF25

/-- The 192 bytes of the key stream. -/
def keyStream : Array UInt8 := #[
  0xb8, 0xfe, 0x6c, 0x39, 0x23, 0xa4, 0x4b, 0xbe, 0x7c, 0x01, 0x81, 0x2c, 0xf7, 0x21, 0xad, 0x1c,
  0xde, 0xd4, 0x6d, 0xe9, 0x83, 0x90, 0x97, 0xdb, 0x72, 0x40, 0xa4, 0xa4, 0xb7, 0xb3, 0x67, 0x1f,
  0xcb, 0x79, 0xe6, 0x4e, 0xcc, 0xc0, 0xe5, 0x78, 0x82, 0x5a, 0xd0, 0x7d, 0xcc, 0xff, 0x72, 0x21,
  0xb8, 0x08, 0x46, 0x74, 0xf7, 0x43, 0x24, 0x8e, 0xe0, 0x35, 0x90, 0xe6, 0x81, 0x3a, 0x26, 0x4c,
  0x3c, 0x28, 0x52, 0xbb, 0x91, 0xc3, 0x00, 0xcb, 0x88, 0xd0, 0x65, 0x8b, 0x1b, 0x53, 0x2e, 0xa3,
  0x71, 0x64, 0x48, 0x97, 0xa2, 0x0d, 0xf9, 0x4e, 0x38, 0x19, 0xef, 0x46, 0xa9, 0xde, 0xac, 0xd8,
  0xa8, 0xfa, 0x76, 0x3f, 0xe3, 0x9c, 0x34, 0x3f, 0xf9, 0xdc, 0xbb, 0xc7, 0xc7, 0x0b, 0x4f, 0x1d,
  0x8a, 0x51, 0xe0, 0x4b, 0xcd, 0xb4, 0x59, 0x31, 0xc8, 0x9f, 0x7e, 0xc9, 0xd9, 0x78, 0x73, 0x64,
  0xea, 0xc5, 0xac, 0x83, 0x34, 0xd3, 0xeb, 0xc3, 0xc5, 0x81, 0xa0, 0xff, 0xfa, 0x13, 0x63, 0xeb,
  0x17, 0x0d, 0xdd, 0x51, 0xb7, 0xf0, 0xda, 0x49, 0xd3, 0x16, 0x55, 0x26, 0x29, 0xd4, 0x68, 0x9e,
  0x2b, 0x16, 0xbe, 0x58, 0x7d, 0x47, 0xa1, 0xfc, 0x8f, 0xf8, 0xb8, 0xd1, 0x7a, 0xd0, 0x31, 0xce,
  0x45, 0xcb, 0x3a, 0x8f, 0x95, 0x16, 0x04, 0x28, 0xaf, 0xd7, 0xfb, 0xca, 0xbb, 0x4b, 0x40, 0x7e]

/-- The 64-bit word of the key stream at a position. -/
def key64 (i : Nat) : UInt64 := word64 keyStream i

/-- The 32-bit word of the key stream at a position. -/
def key32 (i : Nat) : UInt64 := word32 keyStream i

/-! ### Finishing mixes -/

/-- The finishing mix with two multiplications. -/
def finishLong (h : UInt64) : UInt64 :=
  let h := (h ^^^ (h >>> 33)) * prime64b
  let h := (h ^^^ (h >>> 29)) * prime64c
  h ^^^ (h >>> 32)

/-- The finishing mix with one multiplication. -/
def finishShort (h : UInt64) : UInt64 :=
  let h := (h ^^^ (h >>> 37)) * primeMixA
  h ^^^ (h >>> 32)

/-! ### Up to 16 bytes -/

/-- The hash of the empty input. -/
def hashEmpty : UInt64 × UInt64 :=
  (finishLong (key64 64 ^^^ key64 72), finishLong (key64 80 ^^^ key64 88))

/-- The hash of one to three bytes. -/
def hashTo3 (input : Array UInt8) : UInt64 × UInt64 :=
  let size := input.size
  let low := (byteAt input 0 <<< 16) ||| (byteAt input (size / 2) <<< 24)
    ||| byteAt input (size - 1) ||| (UInt64.ofNat size <<< 8)
  let high := turn13 (swap32 low)
  (finishLong (low ^^^ (key32 0 ^^^ key32 4)), finishLong (high ^^^ (key32 8 ^^^ key32 12)))

/-- The hash of four to eight bytes. -/
def hashTo8 (input : Array UInt8) : UInt64 × UInt64 :=
  let size := UInt64.ofNat input.size
  let word := word32 input 0 + (word32 input (input.size - 4) <<< 32)
  let (low, high) := fullProduct (word ^^^ (key64 16 ^^^ key64 24)) (prime64a + (size <<< 2))
  let high := high + (low <<< 1)
  let low := low ^^^ (high >>> 3)
  let low := (low ^^^ (low >>> 35)) * primeMixB
  (low ^^^ (low >>> 28), finishShort high)

/-- The hash of nine to sixteen bytes. -/
def hashTo16 (input : Array UInt8) : UInt64 × UInt64 :=
  let size := UInt64.ofNat input.size
  let first := word64 input 0
  let last := word64 input (input.size - 8)
  let (low, high) := fullProduct (first ^^^ last ^^^ (key64 32 ^^^ key64 40)) prime64a
  let low := low + ((size - 1) <<< 54)
  let last := last ^^^ (key64 48 ^^^ key64 56)
  let high := high + (last + lowHalf last * (prime32b - 1))
  let low := low ^^^ swap64 high
  let (outLow, outHigh) := fullProduct low prime64b
  (finishShort outLow, finishShort (outHigh + high * prime64b))

/-! ### Up to 240 bytes -/

/-- The mix of 16 input bytes with 16 key bytes. -/
def mix16 (input : Array UInt8) (i key : Nat) : UInt64 :=
  foldedProduct (word64 input i ^^^ key64 key) (word64 input (i + 8) ^^^ key64 (key + 8))

/-- The mix of two runs of 16 input bytes, at `i` and `j`, into both halves of the state. -/
def mix32 (input : Array UInt8) (state : UInt64 × UInt64) (i j key : Nat) : UInt64 × UInt64 :=
  ((state.1 + mix16 input i key) ^^^ (word64 input j + word64 input (j + 8)),
    (state.2 + mix16 input j (key + 16)) ^^^ (word64 input i + word64 input (i + 8)))

/-- The result of a state that has seen all of a middle-sized input. -/
def finishMiddle (size : UInt64) (state : UInt64 × UInt64) : UInt64 × UInt64 :=
  let (low, high) := state
  (finishShort (low + high),
    0 - finishShort (low * prime64a + high * prime64d + size * prime64b))

/-- The hash of 17 to 128 bytes: pairs of runs from both ends, the innermost first. -/
def hashTo128 (input : Array UInt8) : UInt64 × UInt64 :=
  let size := input.size
  let rounds := (size - 1) / 32 + 1
  let state := (List.range rounds).reverse.foldl
    (fun state n => mix32 input state (16 * n) (size - 16 * (n + 1)) (32 * n))
    (UInt64.ofNat size * prime64a, 0)
  finishMiddle (UInt64.ofNat size) state

/-- The hash of 129 to 240 bytes: runs from the front, then the last two. -/
def hashTo240 (input : Array UInt8) : UInt64 × UInt64 :=
  let size := input.size
  let (low, high) := (List.range 4).foldl
    (fun state n => mix32 input state (32 * n) (32 * n + 16) (32 * n))
    (UInt64.ofNat size * prime64a, 0)
  let state := (List.range (size / 32 - 4)).foldl
    (fun state n => mix32 input state (32 * n + 128) (32 * n + 144) (32 * n + 3))
    (finishShort low, finishShort high)
  finishMiddle (UInt64.ofNat size) (mix32 input state (size - 16) (size - 32) 103)

/-! ### Longer inputs -/

/-- The eight lanes that a long input is accumulated into, at their start. -/
def startLanes : Array UInt64 :=
  #[prime32c, prime64a, prime64b, prime64c, prime64d, prime32b, prime64e, prime32a]

/-- One stripe of 64 input bytes, added to the lanes: each lane gets the product of the halves of
its keyed word, and its neighbour the word itself. -/
def addStripe (input : Array UInt8) (lanes : Array UInt64) (i key : Nat) : Array UInt64 :=
  lanes.mapIdx fun n (lane : UInt64) =>
    let keyed := word64 input (i + 8 * n) ^^^ key64 (key + 8 * n)
    let neighbour := if n % 2 = 0 then n + 1 else n - 1
    lane + word64 input (i + 8 * neighbour) + lowHalf keyed * (keyed >>> 32)

/-- The mix that closes a block of sixteen stripes. -/
def closeBlock (lanes : Array UInt64) : Array UInt64 :=
  lanes.mapIdx fun n (lane : UInt64) =>
    (lane ^^^ (lane >>> 47) ^^^ key64 (128 + 8 * n)) * prime32a

/-- The lanes folded into one word. -/
def mergeLanes (lanes : Array UInt64) (key : Nat) (start : UInt64) : UInt64 :=
  finishShort <| (List.range 4).foldl
    (fun sum n => sum + foldedProduct (lanes.getD (2 * n) 0 ^^^ key64 (key + 16 * n))
      (lanes.getD (2 * n + 1) 0 ^^^ key64 (key + 16 * n + 8)))
    start

/-- The hash of more than 240 bytes.  The last 64 bytes are always a stripe of their own, so they
may be read twice. -/
def hashLong (input : Array UInt8) : UInt64 × UInt64 :=
  let size := input.size
  let lanes := (List.range ((size - 1) / 64)).foldl
    (fun lanes n =>
      let lanes := addStripe input lanes (64 * n) (8 * (n % 16))
      if n % 16 = 15 then closeBlock lanes else lanes)
    startLanes
  let lanes := addStripe input lanes (size - 64) 121
  let length := UInt64.ofNat size
  (mergeLanes lanes 11 (length * prime64a), mergeLanes lanes 117 (~~~(length * prime64b)))

/-- The hash of a byte string, as its low and its high word. -/
def hash (bytes : Bytes) : UInt64 × UInt64 :=
  let input := bytes.toArray
  if input.size = 0 then hashEmpty
  else if input.size ≤ 3 then hashTo3 input
  else if input.size ≤ 8 then hashTo8 input
  else if input.size ≤ 16 then hashTo16 input
  else if input.size ≤ 128 then hashTo128 input
  else if input.size ≤ 240 then hashTo240 input
  else hashLong input

end Recompile.Xxh3
