import Recompile.Digest.Basic
import Recompile.ModuleId

/-!
# Snapshots

A snapshot is the text of a module at one moment.  Its version counts the texts that the module has
had; its fingerprint is the digest of its text.
-/

namespace Recompile

/-- The text of a module at one moment. -/
structure Snapshot where
  /-- The module. -/
  id : ModuleId
  /-- The text. -/
  text : String
  /-- The number of different successive texts so far, this one included. -/
  version : Nat
deriving DecidableEq, Inhabited

namespace Snapshot

/-- The digest of the text. -/
def fingerprint (snapshot : Snapshot) : Digest :=
  Digest.ofText snapshot.text

/-- The size of the text in bytes. -/
def size (snapshot : Snapshot) : Nat :=
  snapshot.text.utf8ByteSize

end Snapshot

/-- What handing in a text did to a module's snapshot. -/
inductive SnapshotChange where
  /-- The module had none. -/
  | created
  /-- The module had another text, with this digest. -/
  | replaced (previous : Digest)
  /-- The module had this text already. -/
  | unchanged
deriving DecidableEq

end Recompile
