import Recompile.Disk.Basic
import Recompile.ModuleId

/-!
# What can go wrong with persisted results
-/

namespace Recompile

/-- Why something persisted could not be read or written. -/
inductive StorageError where
  /-- The disk refused. -/
  | disk (path : Path) (fault : Disk.Fault)
  /-- The manifest cannot be understood. -/
  | manifest (reason : String)
  /-- A file is no artifact. -/
  | header (path : Path) (reason : String)
  /-- The payload of an artifact is not what its header says. -/
  | checksum (path : Path) (expected actual : String)
  /-- An artifact has another format. -/
  | format (path : Path) (expected actual : UInt32)
  /-- An artifact was made by another compiler. -/
  | tool (path : Path) (expected actual : String)
  /-- A record answers another question. -/
  | record (file : String) (reason : String)
  /-- A value cannot be packed or unpacked. -/
  | packing (reason : String)
deriving DecidableEq

namespace StorageError

/-- The text of an error. -/
def message : StorageError → String
  | disk path fault => path.text ++ ": " ++ fault.text
  | manifest reason => "unreadable manifest: " ++ reason
  | header path reason => path.text ++ " is not a tsforge artifact (" ++ reason ++ ")"
  | checksum path expected actual =>
    path.text ++ " is corrupt: payload hash " ++ actual ++ ", header says " ++ expected
  | format path expected actual =>
    path.text ++ " has cache format " ++ toString actual.toNat ++ ", this build reads format "
      ++ toString expected.toNat
  | tool path expected actual =>
    path.text ++ " was produced by compiler " ++ actual ++ ", expected " ++ expected
  | record file reason => "stale cache record for " ++ file ++ ": " ++ reason
  | packing reason => "cannot encode cache data: " ++ reason

/-- Whether the error is that a file or directory is missing. -/
def isNotFound : StorageError → Bool
  | disk _ fault => fault.isNotFound
  | _ => false

end StorageError

/-- The format of everything persisted; results of other formats are never used. -/
def formatVersion : UInt32 := 1

end Recompile
