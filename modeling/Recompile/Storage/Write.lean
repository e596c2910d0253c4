import Recompile.Storage.Error

/-!
# Writing files

A file is replaced at once: whoever reads it sees the old content or the new one.  Several files are
replaced one after the other, and the first failure ends that; what was replaced before it stays
replaced.
-/

namespace Recompile

/-- The new content of a file. -/
structure Write where
  /-- The file. -/
  path : Path
  /-- What it will hold. -/
  content : Bytes
deriving DecidableEq

namespace Write

/-- The directory of the file. -/
def directory (write : Write) : Path :=
  write.path.parent?.getD ⟨"."⟩

/-- Replaces the file.  Its directory is made if it is missing. -/
def run (write : Write) (disk : Disk) : Except StorageError Unit × Disk :=
  match disk.makeDirectories write.directory with
  | (.error fault, disk) => (.error (.disk write.directory fault), disk)
  | (.ok (), disk) =>
    match disk.write write.path write.content with
    | .error fault => (.error (.disk write.path fault), disk)
    | .ok disk => (.ok (), disk)

/-- Replaces files one after the other, up to the first failure. -/
def runAll : List Write → Disk → Except StorageError Unit × Disk
  | [], disk => (.ok (), disk)
  | write :: rest, disk =>
    match write.run disk with
    | (.error error, disk) => (.error error, disk)
    | (.ok (), disk) => runAll rest disk

/-- The first file is replaced before the others. -/
theorem runAll_cons (write : Write) (rest : List Write) (disk : Disk) :
    runAll (write :: rest) disk =
      match write.run disk with
      | (.error error, disk) => (.error error, disk)
      | (.ok (), disk) => runAll rest disk :=
  rfl

/-- Two lists of files are replaced one after the other, the second only if the first was replaced
altogether. -/
theorem runAll_append (first second : List Write) (disk : Disk) :
    runAll (first ++ second) disk =
      match runAll first disk with
      | (.error error, disk) => (.error error, disk)
      | (.ok (), disk) => runAll second disk := by
  induction first generalizing disk with
  | nil => rfl
  | cons write rest ih =>
    rw [List.cons_append, runAll_cons, runAll_cons]
    rcases write.run disk with ⟨error | ⟨⟩, disk⟩
    · rfl
    · exact ih disk

end Write

end Recompile
