import Recompile.ImportGraph.Basic
import Recompile.Manifest
import Recompile.Record.Slot
import Recompile.Snapshot.Table
import Recompile.Storage.Archive

/-!
# Compile caches

A cache remembers what was computed about modules, in memory and in an archive on disk, and decides
what of it still holds.  Each configuration has a namespace of its own: a directory with an archive
and a manifest.

A record holds as long as the text of its module and the generation of its module are those that it
names.  The generation of a module is raised whenever a module connected to it by imports, or the
module itself, gets another text than the one last recorded (`Cache.recordContent`).  Texts change
also while no process runs; modules whose text was recorded earlier and has not been seen since are
unobserved, and are read from disk before a module connected to them is looked up (`Cache.observe`).
-/

namespace Recompile

/-- A compile cache. -/
structure Cache where
  /-- The directory of the namespaces. -/
  root : Path
  /-- The active configuration. -/
  config : Digest
  /-- The version of the compiler. -/
  tool : String
  /-- The modules where the import tree starts. -/
  entries : List ModuleId
  /-- The current texts. -/
  snapshots : SnapshotTable
  /-- Which modules depend on which. -/
  graph : ImportGraph
  /-- The records in memory. -/
  memory : Std.ExtTreeMap Slot Record
  /-- What is known about each module under the active configuration. -/
  manifest : Manifest
  /-- The slots with results that were not stored yet. -/
  pending : Std.ExtTreeSet Slot
  /-- Whether texts, generations or edges changed that were not stored yet. -/
  dirty : Bool
  /-- The modules with a recorded text that this process has not seen yet. -/
  unobserved : Std.ExtTreeSet ModuleId
deriving DecidableEq

namespace Cache

/-- The directory of the active namespace. -/
def directory (cache : Cache) : Path :=
  cache.root.join ⟨cache.config.hex⟩

/-- The archive of the active namespace. -/
def archive (cache : Cache) : Archive :=
  ⟨cache.directory, cache.tool⟩

/-- How many records of a shelf are in memory. -/
def count (cache : Cache) (shelf : Shelf) : Nat :=
  cache.memory.keys.countP fun slot => slot.shelf = shelf

/-! ### Namespaces -/

/-- Throws away the active namespace, as far as its directory can be removed. -/
def discard (cache : Cache) (disk : Disk) : Cache × Disk :=
  ({ cache with manifest := .fresh cache.tool cache.config, dirty := false, unobserved := ∅ },
    match disk.removeTree cache.directory with
    | .ok disk => disk
    | .error _ => disk)

/-- The modules with a recorded text of which no snapshot is known. -/
def unseen (snapshots : SnapshotTable) (manifest : Manifest) : Std.ExtTreeSet ModuleId :=
  manifest.files.toList.foldl (fun ids entry =>
    if entry.2.content.isSome && (snapshots.get? entry.1).isNone then ids.insert entry.1 else ids) ∅

/-- Takes over what the active namespace holds.  A manifest of another tool or configuration makes
it worthless; one that is missing or unreadable leaves the cache as it is. -/
def attach (cache : Cache) (disk : Disk) : Cache × Disk :=
  match Manifest.load disk cache.directory with
  | .ok (some manifest) =>
    if manifest.isCompatible cache.tool cache.config then
      ({ cache with
          graph := cache.graph.insertAll manifest.edges
          unobserved := unseen cache.snapshots manifest
          manifest }, disk)
    else cache.discard disk
  | .ok none => (cache, disk)
  | .error _ => (cache, disk)

/-- A cache that knows nothing. -/
def fresh (root : Path) (config : Digest) (tool : String) (entries : List ModuleId) : Cache :=
  { root, config, tool, entries, snapshots := .empty, graph := .empty, memory := ∅,
    manifest := .fresh tool config, pending := ∅, dirty := false, unobserved := ∅ }

/-- Opens the namespace of a configuration. -/
def openAt (disk : Disk) (root : Path) (config : Digest) (tool : String)
    (entries : List ModuleId) : Cache × Disk :=
  (fresh root config tool entries).attach disk

/-! ### Texts and imports -/

/-- The generation of a module. -/
def generation (cache : Cache) (id : ModuleId) : UInt64 :=
  cache.manifest.generation id

/-- Records the digest of the current text of a module.  If another one was recorded, the generation
of every connected module is raised. -/
def recordContent (cache : Cache) (id : ModuleId) (content : Digest) : Cache :=
  let known := cache.manifest.content? id
  if known = some content then cache
  else
    let recorded := cache.manifest.recordContent id content
    let affected := if known.isSome then cache.graph.reachable [id] else []
    { cache with manifest := affected.foldl Manifest.raise recorded, dirty := true }

/-- Hands in the text of a module, and gives its snapshot. -/
def submit (cache : Cache) (id : ModuleId) (text : String) : Snapshot × Cache :=
  let (update, snapshots) := cache.snapshots.submit id text
  let cache := { cache with snapshots, unobserved := cache.unobserved.erase id }
  (update.snapshot, cache.recordContent id update.snapshot.fingerprint)

/-- Reads the text of an unobserved module from disk.  If that fails, what is known about the module
goes on counting. -/
def observeOne (disk : Disk) (cache : Cache) (id : ModuleId) : Cache :=
  let cache := { cache with unobserved := cache.unobserved.erase id }
  match cache.snapshots.submitFile disk ⟨id.text⟩ with
  | .error _ => cache
  | .ok (update, snapshots) =>
    { cache with snapshots }.recordContent update.snapshot.id update.snapshot.fingerprint

/-- Reads the texts of the unobserved modules connected to a module. -/
def observe (cache : Cache) (disk : Disk) (id : ModuleId) : Cache :=
  let connected := (cache.graph.reachable [id]).filter fun other =>
    other ≠ id && cache.unobserved.contains other
  connected.foldl (observeOne disk) cache

/-- Records that a module imports another one. -/
def addImport (cache : Cache) (edge : Edge) : Cache :=
  if cache.graph.contains edge then cache
  else { cache with graph := cache.graph.insert edge, dirty := true }

/-- The modules connected to the entries. -/
def walk (cache : Cache) : List ModuleId :=
  cache.graph.reachable cache.entries

end Cache

end Recompile
