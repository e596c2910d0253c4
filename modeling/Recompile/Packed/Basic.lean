import Recompile.Digest.Basic
import Recompile.ModuleId

/-!
# The packed binary format

A packed value carries no description of itself: the reader knows the type.  Numbers, lengths and
the places of choices take one byte below 251 and otherwise a marker byte followed by two, four,
eight or sixteen little-endian bytes (`Packed.packNat`).  A text is its length and its bytes, a list
its length and its items, an optional value a byte that is zero or one and then the value.

A reader (`Packed.Unpack`) works under a budget, so that a damaged length cannot make it claim more
memory than it was allowed: before it reads something, it claims the size of that thing in memory.
-/

namespace Recompile

namespace Packed

/-- What can be wrong with packed bytes. -/
inductive Fault where
  /-- The bytes end too early. -/
  | unexpectedEnd
  /-- A number is marked wider than its field. -/
  | numberTooWide
  /-- The byte of an optional value is neither zero nor one. -/
  | badOption
  /-- The byte of a truth value is neither zero nor one. -/
  | badBool
  /-- The bytes of a text are not UTF-8. -/
  | badText
  /-- No such choice. -/
  | badChoice
  /-- The budget is used up. -/
  | overBudget
deriving DecidableEq

/-- The name of a fault. -/
def Fault.name : Fault → String
  | unexpectedEnd => "UnexpectedEnd"
  | numberTooWide => "InvalidIntegerType"
  | badOption => "UnexpectedVariant"
  | badBool => "InvalidBooleanValue"
  | badText => "Utf8"
  | badChoice => "OtherString"
  | overBudget => "LimitExceeded"

/-- What a reader has left: its budget and its bytes. -/
structure Remaining where
  /-- How much may still be claimed. -/
  budget : Nat
  /-- The bytes not yet read. -/
  bytes : Bytes
deriving DecidableEq

/-- A reader of packed bytes. -/
abbrev Unpack (α : Type) := Remaining → Except Fault (α × Remaining)

/-- A reader followed by another one. -/
def andThen {α β : Type} (first : Unpack α) (next : α → Unpack β) : Unpack β := fun rest =>
  match first rest with
  | .ok (value, rest) => next value rest
  | .error fault => .error fault

/-- A reader that reads nothing. -/
def done {α : Type} (value : α) : Unpack α := fun rest => .ok (value, rest)

/-- A reader that fails. -/
def fail {α : Type} (fault : Fault) : Unpack α := fun _ => .error fault

/-- The value of an optional one, or a fault. -/
def orFault {α : Type} (fault : Fault) : Option α → Unpack α
  | some value => done value
  | none => fail fault

/-- Takes an amount from the budget. -/
def claim (amount : Nat) : Unpack Unit := fun rest =>
  if amount ≤ rest.budget then .ok ((), { rest with budget := rest.budget - amount })
  else .error .overBudget

/-- Reads exactly so many bytes, without a claim. -/
def take (count : Nat) : Unpack Bytes := fun rest =>
  if count ≤ rest.bytes.length then
    .ok (rest.bytes.take count, { rest with bytes := rest.bytes.drop count })
  else .error .unexpectedEnd

/-- Reads one byte, without a claim. -/
def takeByte : Unpack UInt8 := fun rest =>
  match rest.bytes with
  | byte :: bytes => .ok (byte, { rest with bytes })
  | [] => .error .unexpectedEnd

/-! ### Numbers -/

/-- A number in as few bytes as it needs.  The last form is for numbers of more than eight bytes;
no field of the library is that wide, so no reader takes it. -/
def packNat (n : Nat) : Bytes :=
  if n < 251 then [UInt8.ofNat n]
  else if n < 65536 then 251 :: Bytes.littleEndian 2 n
  else if n < 4294967296 then 252 :: Bytes.littleEndian 4 n
  else if n < 18446744073709551616 then 253 :: Bytes.littleEndian 8 n
  else 254 :: Bytes.littleEndian 16 n

/-- A number whose field is `width` bytes wide, and no number wider than that. -/
def unpackNat (width : Nat) : Unpack Nat :=
  andThen (claim width) fun _ => andThen takeByte fun lead =>
    if lead.toNat < 251 then done lead.toNat
    else
      let size := Nat.pow 2 (lead.toNat - 250)
      if size ≤ width then andThen (take size) fun bytes => done (Bytes.toNat bytes)
      else fail .numberTooWide

/-- Reads one byte under a claim. -/
def unpackByte : Unpack UInt8 :=
  andThen (claim 1) fun _ => takeByte

/-! ### Repetition -/

/-- As many values as stated, one after the other. -/
def unpackMany {α : Type} (item : Unpack α) : Nat → Unpack (List α)
  | 0 => done []
  | count + 1 => andThen item fun value => andThen (unpackMany item count) fun values =>
      done (value :: values)

/-- The place of a choice among `choices`. -/
def unpackChoice {α : Type} (choices : List α) : Unpack α :=
  andThen (unpackNat 4) fun place => orFault .badChoice choices[place]?

end Packed

/-- Values with a packed form. -/
class Packed (α : Type) where
  /-- The packed form. -/
  pack : α → Bytes
  /-- The reader of the packed form. -/
  unpack : Packed.Unpack α

export Packed (pack unpack)

namespace Packed

instance : Packed UInt32 where
  pack n := packNat n.toNat
  unpack := andThen (unpackNat 4) fun n => done (UInt32.ofNat n)

instance : Packed UInt64 where
  pack n := packNat n.toNat
  unpack := andThen (unpackNat 8) fun n => done (UInt64.ofNat n)

instance : Packed Bool where
  pack
    | false => [0]
    | true => [1]
  unpack := andThen unpackByte fun byte =>
    if byte = 0 then done false else if byte = 1 then done true else fail .badBool

instance : Packed String where
  pack text := packNat (Bytes.ofText text).length ++ Bytes.ofText text
  unpack := andThen (unpackNat 8) fun length => andThen (claim length) fun _ =>
    andThen (take length) fun bytes => orFault .badText (Bytes.text? bytes)

instance {α : Type} [Packed α] : Packed (Option α) where
  pack
    | none => [0]
    | some value => 1 :: pack value
  unpack := andThen unpackByte fun byte =>
    if byte = 0 then done none
    else if byte = 1 then andThen unpack fun value => done (some value)
    else fail .badOption

instance {α : Type} [Packed α] : Packed (List α) where
  pack items := packNat items.length ++ items.flatMap pack
  unpack := andThen (unpackNat 8) fun length => unpackMany unpack length

instance : Packed ModuleId where
  pack id := pack id.text
  unpack := andThen unpack fun text => done ⟨text⟩

instance : Packed Digest where
  pack digest := digest.bytes
  unpack := andThen (unpackMany unpackByte 16) fun bytes =>
    orFault .unexpectedEnd (Digest.ofList? bytes)

end Packed

/-- The value that packed bytes start with, read under a budget; what follows it is ignored. -/
def unpackFrom {α : Type} [Packed α] (budget : Nat) (bytes : Bytes) : Except Packed.Fault α :=
  match unpack (α := α) ⟨budget, bytes⟩ with
  | .ok (value, _) => .ok value
  | .error fault => .error fault

end Recompile
