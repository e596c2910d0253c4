import Std.Data.ExtTreeMap
import Recompile.Bytes
import Recompile.Disk.Path

/-!
# Disks

A disk is a tree of directories and files, kept as a map from locations to what is there.  Paths are
followed piece by piece: every piece but the last must lead to a directory.  The operations are the
ones that the library needs, each with the failures that can be told apart: something is missing, or
something else is wrong.

Relative paths start at the current directory, which lies in the root under the empty name, a name
that no path can spell.
-/

namespace Recompile

/-- Where something is on a disk: the names from the root. -/
abbrev Location := List String

/-- What is at a location. -/
inductive Node where
  /-- A file with its content. -/
  | file (content : Bytes)
  /-- A directory. -/
  | directory
deriving DecidableEq

/-- A tree of directories and files. -/
structure Disk where
  /-- What is where; the root and the current directory are always there and not listed. -/
  nodes : Std.ExtTreeMap Location Node
deriving DecidableEq

namespace Disk

/-- What kind of failure an operation met. -/
inductive FaultKind where
  /-- Something is missing. -/
  | notFound
  /-- Something may not be touched. -/
  | denied
  /-- Anything else. -/
  | other
deriving DecidableEq, Inhabited

/-- A failure of an operation. -/
structure Fault where
  /-- Its kind. -/
  kind : FaultKind
  /-- Its text. -/
  text : String
deriving DecidableEq, Inhabited

/-- Whether the failure is that something is missing. -/
def Fault.isNotFound (fault : Fault) : Bool := fault.kind = .notFound

/-- Something on the path is missing. -/
def missing : Fault := ⟨.notFound, "no such file or directory"⟩

/-- Something on the path is a file and should be a directory. -/
def notDirectory : Fault := ⟨.other, "not a directory"⟩

/-- The path leads to a directory and should lead to a file. -/
def isDirectoryFault : Fault := ⟨.other, "is a directory"⟩

/-- Something is already there. -/
def alreadyThere : Fault := ⟨.other, "file exists"⟩

/-- The path cannot be a path. -/
def badPath : Fault := ⟨.other, "invalid path"⟩

/-- The content is not text. -/
def notText : Fault := ⟨.other, "content is not valid text"⟩

/-- The disk with an empty current directory. -/
def empty : Disk := ⟨∅⟩

instance : Inhabited Disk := ⟨empty⟩

/-! ### Following paths -/

/-- Where relative paths start. -/
def current : Location := [""]

/-- What is at a location. -/
def node? (disk : Disk) (location : Location) : Option Node :=
  if location = [] ∨ location = current then some .directory else disk.nodes[location]?

/-- Whether a location holds a directory. -/
def isDirectoryAt (disk : Disk) (location : Location) : Bool :=
  disk.node? location = some .directory

/-- The longest name of an entry, in bytes. -/
def maxName : Nat := 255

/-- The size in bytes that a path must stay below. -/
def maxPath : Nat := 4096

/-- Where a path starts, if it can be a path at all. -/
def start (path : Path) : Except Fault Location :=
  if path.text.isEmpty then .error missing
  else if path.text.toList.contains '\x00' then .error badPath
  else if maxPath ≤ path.text.utf8ByteSize then .error badPath
  else .ok (if path.isAbsolute then [] else current)

/-- Follows pieces from a location.  Each piece needs a directory to be followed in; the last one
may lead to nothing. -/
def follow (disk : Disk) : Location → List String → Except Fault Location
  | location, [] => .ok location
  | location, piece :: rest =>
    match disk.node? location with
    | none => .error missing
    | some (.file _) => .error notDirectory
    | some .directory =>
      if Path.isIdle piece then follow disk location rest
      else if piece = ".." then follow disk location.dropLast rest
      else if maxName < piece.utf8ByteSize then .error badPath
      else follow disk (location ++ [piece]) rest

/-- What a path leads to. -/
def find (disk : Disk) (path : Path) : Except Fault (Location × Node) := do
  let location ← disk.follow (← start path) path.pieces
  match disk.node? location with
  | some node => return (location, node)
  | none => throw missing

/-- Whether a path leads to anything. -/
def contains (disk : Disk) (path : Path) : Bool :=
  (disk.find path).isOk

/-- Whether a path leads to a directory. -/
def isDirectory (disk : Disk) (path : Path) : Bool :=
  match disk.find path with
  | .ok (_, .directory) => true
  | _ => false

/-- The location for an entry that the last of the pieces names in an existing directory. -/
def entryAt (disk : Disk) (start : Location) (pieces : List String) : Except Fault Location := do
  let parent ← disk.follow start pieces.dropLast
  match disk.node? parent, pieces.getLast? with
  | none, _ => throw missing
  | some (.file _), _ => throw notDirectory
  | some .directory, some name =>
    if Path.isIdle name ∨ name = ".." then throw alreadyThere
    else if maxName < name.utf8ByteSize then throw badPath
    else return parent ++ [name]
  | some .directory, none => throw alreadyThere

/-! ### Reading -/

/-- The content of a file. -/
def read (disk : Disk) (path : Path) : Except Fault Bytes := do
  match ← disk.find path with
  | (_, .file content) => return content
  | (_, .directory) => throw isDirectoryFault

/-- The text in a file. -/
def readText (disk : Disk) (path : Path) : Except Fault String := do
  match Bytes.text? (← disk.read path) with
  | some text => return text
  | none => throw notText

/-- The entries of a directory, in the order of their names. -/
def entriesAt (disk : Disk) (location : Location) : List (String × Node) :=
  disk.nodes.toList.filterMap fun (place, node) =>
    if place.dropLast = location then place.getLast?.map fun name => (name, node) else none

/-- The entries of the directory that a path leads to. -/
def entries (disk : Disk) (path : Path) : Except Fault (List (String × Node)) := do
  match ← disk.find path with
  | (location, .directory) => return disk.entriesAt location
  | (_, .file _) => throw notDirectory

/-- The files at or below a location, with their locations. -/
def filesBelow (disk : Disk) (location : Location) : List (Location × Bytes) :=
  disk.nodes.toList.filterMap fun (place, node) =>
    match node with
    | .file content => if location.isPrefixOf place then some (place, content) else none
    | .directory => none

/-! ### Writing -/

/-- The disk with something put at a location. -/
def insert (disk : Disk) (location : Location) (node : Node) : Disk :=
  ⟨disk.nodes.insert location node⟩

/-- The disk without anything at or below a location. -/
def prune (disk : Disk) (location : Location) : Disk :=
  ⟨disk.nodes.filter fun place _ => !location.isPrefixOf place⟩

/-- Puts a file where a path leads, in place of the file that was there.  Its directory must
exist. -/
def write (disk : Disk) (path : Path) (content : Bytes) : Except Fault Disk := do
  let location ← disk.entryAt (← start path) path.pieces
  if disk.isDirectoryAt location then throw isDirectoryFault
  return disk.insert location (.file content)

/-- Makes one directory where nothing was. -/
def makeDirectory (disk : Disk) (path : Path) : Except Fault Disk := do
  let pieces := (path.pieces.reverse.dropWhile (· = "")).reverse
  let location ← disk.entryAt (← start path) pieces
  match disk.node? location with
  | some _ => throw alreadyThere
  | none => return disk.insert location .directory

/-- Makes a directory and those above it that are missing, as far as the fuel goes.  Directories
made before a failure stay. -/
def makeDirectoriesIn : Nat → Disk → Path → Except Fault Unit × Disk
  | 0, disk, _ => (.error badPath, disk)
  | fuel + 1, disk, path =>
    if path.text.isEmpty then (.ok (), disk)
    else
      match disk.makeDirectory path with
      | .ok disk => (.ok (), disk)
      | .error fault =>
        if fault.isNotFound then
          match path.parent? with
          | none => (.error badPath, disk)
          | some parent =>
            match makeDirectoriesIn fuel disk parent with
            | (.error fault, disk) => (.error fault, disk)
            | (.ok (), disk) =>
              match disk.makeDirectory path with
              | .ok disk => (.ok (), disk)
              | .error fault =>
                (if disk.isDirectory path then .ok () else .error fault, disk)
        else (if disk.isDirectory path then .ok () else .error fault, disk)

/-- Makes a directory and those above it that are missing. -/
def makeDirectories (disk : Disk) (path : Path) : Except Fault Unit × Disk :=
  -- The parent of a path is shorter than the path.
  makeDirectoriesIn (path.text.length + 1) disk path

/-- Removes a file. -/
def removeFile (disk : Disk) (path : Path) : Except Fault Disk := do
  match ← disk.find path with
  | (location, .file _) => return ⟨disk.nodes.erase location⟩
  | (_, .directory) => throw isDirectoryFault

/-- Removes a directory with all that is below it. -/
def removeTree (disk : Disk) (path : Path) : Except Fault Disk := do
  match ← disk.find path with
  | (location, .directory) => return disk.prune location
  | (_, .file _) => throw notDirectory

end Disk

end Recompile
