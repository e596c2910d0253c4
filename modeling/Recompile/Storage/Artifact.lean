import Recompile.Packed.Basic
import Recompile.Storage.Error

/-!
# The artifact format

An artifact is the length of its header in four little-endian bytes, the packed header, and the
payload.  The header has a mark, the format version, the tool that made the payload, and the digest
of the payload.  `Artifact.payload` accepts exactly the bytes whose header passes every check; the
checks have a fixed order, so that the first failing one is the one reported.
-/

namespace Recompile.Artifact

/-- The header of an artifact. -/
structure Header where
  /-- The mark of the format. -/
  mark : Bytes
  /-- The format version. -/
  format : UInt32
  /-- The tool that made the payload. -/
  tool : String
  /-- The digest of the payload. -/
  checksum : Digest
deriving DecidableEq

/-- The mark of every artifact. -/
def formatMark : Bytes := [0x54, 0x53, 0x46, 0x47]

/-- The most that reading a header may claim. -/
def maxHeader : Nat := 4096

instance : Packed Header where
  pack h := h.mark ++ pack h.format ++ pack h.tool ++ pack h.checksum
  unpack := Packed.andThen (Packed.unpackMany Packed.unpackByte 4) fun mark =>
    Packed.andThen unpack fun format => Packed.andThen unpack fun tool =>
    Packed.andThen unpack fun checksum => Packed.done { mark, format, tool, checksum }

/-- The header of a payload. -/
def headerOf (tool : String) (payload : Bytes) : Header :=
  { mark := formatMark, format := formatVersion, tool, checksum := Digest.ofBytes payload }

/-- The artifact that holds a payload. -/
def encode (tool : String) (payload : Bytes) : Bytes :=
  let header := pack (headerOf tool payload)
  Bytes.littleEndian 4 header.length ++ header ++ payload

/-- What can be wrong with an artifact. -/
inductive Fault where
  /-- There are fewer than four bytes. -/
  | shortLength
  /-- There are fewer bytes than the header should have. -/
  | shortHeader
  /-- The header cannot be unpacked. -/
  | badHeader (fault : Packed.Fault)
  /-- The mark is another one. -/
  | badMark
  /-- The format is another one. -/
  | format (actual : UInt32)
  /-- The tool is another one. -/
  | tool (actual : String)
  /-- The payload has another digest. -/
  | checksum (expected actual : Digest)
deriving DecidableEq

/-- The first check of a header and its payload that fails. -/
def Header.fault? (header : Header) (tool : String) (payload : Bytes) : Option Fault :=
  if header.mark ≠ formatMark then some .badMark
  else if header.format ≠ formatVersion then some (.format header.format)
  else if header.tool ≠ tool then some (.tool header.tool)
  else if header.checksum ≠ Digest.ofBytes payload then
    some (.checksum header.checksum (Digest.ofBytes payload))
  else none

/-- The payload of an artifact made by a tool. -/
def payload (tool : String) (raw : Bytes) : Except Fault Bytes :=
  if raw.length < 4 then .error .shortLength
  else
    let size := Bytes.toNat (raw.take 4)
    let body := raw.drop 4
    if body.length < size then .error .shortHeader
    else
      match unpackFrom (α := Header) maxHeader (body.take size) with
      | .error fault => .error (.badHeader fault)
      | .ok header =>
        match header.fault? tool (body.drop size) with
        | some fault => .error fault
        | none => .ok (body.drop size)

/-- The error for an artifact at a path that was expected to be made by a tool. -/
def Fault.toError (path : Path) (tool : String) : Fault → StorageError
  | shortLength => .header path "truncated header length"
  | shortHeader => .header path "truncated header"
  | badHeader fault => .header path fault.name
  | badMark => .header path "bad magic bytes"
  | format actual => .format path formatVersion actual
  | Fault.tool actual => .tool path tool actual
  | checksum expected actual => .checksum path expected.hex actual.hex

end Recompile.Artifact
