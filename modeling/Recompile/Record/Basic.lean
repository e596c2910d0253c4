import Recompile.Record.Output
import Recompile.Record.Findings

/-!
# Persisted records

A record is what one artifact holds: an output or findings, with the module, the content and the
generation they belong to.  `Record.mismatch?` tells whether a record answers a question about a
module; since it looks at what the record says of itself, an artifact found under the wrong name is
never taken for an answer.
-/

namespace Recompile

/-- The two collections of results that the cache keeps. -/
inductive Shelf where
  /-- Outputs. -/
  | code
  /-- Findings. -/
  | diagnostics
deriving DecidableEq, Inhabited

namespace Shelf

/-- Both shelves, in the order in which they are written. -/
def all : List Shelf := [code, diagnostics]

/-- The directory of a shelf, which is also how it is shown to people. -/
def directory : Shelf → String
  | code => "code"
  | diagnostics => "diagnostics"

/-- The place of a shelf in the order. -/
def rank : Shelf → Nat
  | code => 0
  | diagnostics => 1

instance : Ord Shelf := ⟨compareOn rank⟩

instance : Std.OrientedOrd Shelf := inferInstanceAs (Std.OrientedCmp (compareOn rank))

instance : Std.TransOrd Shelf := inferInstanceAs (Std.TransCmp (compareOn rank))

instance : Std.LawfulEqOrd Shelf where
  eq_of_compare {a b} := by cases a <;> cases b <;> decide

end Shelf

/-- What one artifact holds. -/
structure Record where
  /-- The module. -/
  file : ModuleId
  /-- The digest of the text that was compiled or checked. -/
  content : Digest
  /-- The generation of the module at that time. -/
  generation : UInt64
  /-- The output, in a record of the code shelf. -/
  output : Option Output
  /-- The findings, in a record of the diagnostics shelf. -/
  findings : Option Findings
deriving DecidableEq

/-- Why a record does not answer a question about a module. -/
inductive Mismatch where
  /-- The record is about another module. -/
  | file (actual : ModuleId)
  /-- The record is about another text. -/
  | content (actual expected : Digest)
  /-- The record is about another generation. -/
  | generation (actual expected : UInt64)
deriving DecidableEq

/-- The reason as text. -/
def Mismatch.text : Mismatch → String
  | file actual => "record belongs to " ++ actual.text
  | content actual expected => "content fingerprint " ++ actual.hex ++ " != " ++ expected.hex
  | generation actual expected =>
    "generation " ++ toString actual.toNat ++ " != " ++ toString expected.toNat

namespace Record

/-- The most that reading a record may claim. -/
def maxSize : Nat := 268435456

instance : JsonShape Record where
  toJson r := .record [("file_id", toJson r.file), ("content_fingerprint", toJson r.content),
    ("generation", toJson r.generation), ("compiled", toJson r.output),
    ("diagnostics", toJson r.findings)]
  ofJson? json := do
    match ← JsonShape.allFields?
        ["file_id", "content_fingerprint", "generation", "compiled", "diagnostics"] json with
    | [file, content, generation, output, findings] =>
      return ⟨← JsonShape.required file, ← JsonShape.required content,
        ← JsonShape.required generation, ← JsonShape.withDefault none output,
        ← JsonShape.withDefault none findings⟩
    | _ => none

instance : Packed Record where
  pack r := pack r.file ++ pack r.content ++ pack r.generation ++ pack r.output ++ pack r.findings
  unpack := Packed.andThen unpack fun file => Packed.andThen unpack fun content =>
    Packed.andThen unpack fun generation => Packed.andThen unpack fun output =>
    Packed.andThen unpack fun findings =>
    Packed.done { file, content, generation, output, findings }

/-- The bytes of a record. -/
def toBytes (record : Record) : Bytes := pack record

/-- The record that bytes start with. -/
def ofBytes (bytes : Bytes) : Except Packed.Fault Record := unpackFrom maxSize bytes

/-- The first reason why the record is not about this module, text and generation. -/
def mismatch? (record : Record) (file : ModuleId) (content : Digest) (generation : UInt64) :
    Option Mismatch :=
  if record.file ≠ file then some (.file record.file)
  else if record.content ≠ content then some (.content record.content content)
  else if record.generation ≠ generation then some (.generation record.generation generation)
  else none

end Record

/-- The name of the artifact for a module, a text, a configuration and a generation. -/
def artifactKey (file : ModuleId) (content config : Digest) (generation : UInt64) : String :=
  (Digest.ofParts [Bytes.ofText file.text, content.bytes, config.bytes,
    Bytes.littleEndian 8 generation.toNat]).hex

end Recompile
