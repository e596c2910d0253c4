import Recompile.Storage.Artifact
import Recompile.Storage.Write

/-!
# Archives: directories of artifacts

An archive keeps artifacts as files under a root directory, each in a subdirectory and under a key.
Seen through `Archive.read` and `Archive.write` it is a map from subdirectories and keys to
payloads; `Archive.collect` drops the keys of a subdirectory that are not live.
-/

namespace Recompile

/-- A directory of artifacts made by one tool. -/
structure Archive where
  /-- The root directory. -/
  root : Path
  /-- The tool. -/
  tool : String
deriving DecidableEq, Inhabited

namespace Archive

/-- The ending of the names of artifact files. -/
def ending : String := "bin"

/-- The file of an artifact. -/
def pathOf (archive : Archive) (subdirectory key : String) : Path :=
  (archive.root.join ⟨subdirectory⟩).join ⟨key ++ "." ++ ending⟩

/-- The write that stores a payload. -/
def storing (archive : Archive) (subdirectory key : String) (payload : Bytes) : Write :=
  ⟨archive.pathOf subdirectory key, Artifact.encode archive.tool payload⟩

/-- Stores a payload. -/
def write (archive : Archive) (disk : Disk) (subdirectory key : String) (payload : Bytes) :
    Except StorageError Unit × Disk :=
  (archive.storing subdirectory key payload).run disk

/-- The payload stored under a key. -/
def read (archive : Archive) (disk : Disk) (subdirectory key : String) :
    Except StorageError Bytes :=
  let path := archive.pathOf subdirectory key
  match disk.read path with
  | .error fault => .error (.disk path fault)
  | .ok raw =>
    match Artifact.payload archive.tool raw with
    | .error fault => .error (fault.toError path archive.tool)
    | .ok payload => .ok payload

/-- Whether a file of an archive is of no more use: an artifact whose key is not live, or what is
left of a write that never finished. -/
def isDead (live : List String) (name : String) : Bool :=
  if Path.extension? name = some ending then !live.contains (Path.stem name)
  else ['.', 't', 'm', 'p'].isPrefixOf (Path.stem name).toList

/-- Removes files of a directory one by one, counting them. -/
def removeAll (directory : Path) : List String → Disk → Except StorageError Nat × Disk
  | [], disk => (.ok 0, disk)
  | name :: names, disk =>
    let path := directory.join ⟨name⟩
    match disk.removeFile path with
    | .error fault => (.error (.disk path fault), disk)
    | .ok disk =>
      match removeAll directory names disk with
      | (.ok count, disk) => (.ok (count + 1), disk)
      | (.error error, disk) => (.error error, disk)

/-- Removes the dead files of a subdirectory and counts them. -/
def collect (archive : Archive) (disk : Disk) (subdirectory : String) (live : List String) :
    Except StorageError Nat × Disk :=
  let directory := archive.root.join ⟨subdirectory⟩
  if disk.contains directory then
    match disk.entries directory with
    | .error fault => (.error (.disk directory fault), disk)
    | .ok entries => removeAll directory ((entries.map (·.1)).filter (isDead live)) disk
  else (.ok 0, disk)

end Archive

end Recompile
