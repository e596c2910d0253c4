import Recompile.Cache.Basic

/-!
# Storing results

What was computed is stored by replacing files: first the artifacts of all pending slots, in the
order of the slots, and last the manifest that names them (`Cache.artifactWrites`,
`Cache.flushedManifest`).  So a manifest on disk never names an artifact that was not written before
it.  If a write fails, everything stays pending.
-/

namespace Recompile

/-- What storing the results of a round came to. -/
inductive FlushOutcome where
  /-- Nothing had changed. -/
  | clean
  /-- So many artifacts were written. -/
  | flushed (artifacts : Nat)
  /-- A write failed. -/
  | failed (error : StorageError)
deriving DecidableEq

/-- Whether a write failed. -/
def FlushOutcome.isFailed : FlushOutcome → Bool
  | failed _ => true
  | _ => false

namespace Cache

/-! ### Flushing -/

/-- The pending slots and their records, in order. -/
def pendingRecords (cache : Cache) : List (Slot × Record) :=
  cache.pending.toList.filterMap fun slot => cache.memory[slot]?.map fun record => (slot, record)

/-- The write that stores a record. -/
def artifactWrite (cache : Cache) (entry : Slot × Record) : Write :=
  cache.archive.storing entry.1.shelf.directory (entry.2.key cache.config) entry.2.toBytes

/-- The writes that store the pending records. -/
def artifactWrites (cache : Cache) : List Write :=
  cache.pendingRecords.map cache.artifactWrite

/-- The manifest that names the pending records, with the current edges. -/
def flushedManifest (cache : Cache) : Manifest :=
  { cache.pendingRecords.foldl (fun manifest (slot, record) =>
      manifest.recordKey slot.shelf slot.file (record.key cache.config)) cache.manifest with
    edges := cache.graph.edges }

/-- Stores everything that changed. -/
def done (cache : Cache) (disk : Disk) : FlushOutcome × Cache × Disk :=
  if cache.pending.isEmpty && !cache.dirty then (.clean, cache, disk)
  else
    match Write.runAll cache.artifactWrites disk with
    | (.error error, disk) => (.failed error, cache, disk)
    | (.ok (), disk) =>
      let manifest := cache.flushedManifest
      match manifest.save disk cache.directory with
      | (.error error, disk) => (.failed error, { cache with manifest }, disk)
      | (.ok (), disk) =>
        (.flushed cache.pendingRecords.length,
          { cache with manifest, pending := ∅, dirty := false }, disk)

/-! ### Throwing away -/

/-- Throws away all results and all edges, in memory and on disk.  Texts stay known. -/
def clean (cache : Cache) (disk : Disk) : Cache × Disk :=
  let (cache, disk) := cache.discard disk
  ({ cache with memory := ∅, graph := .empty, pending := ∅ }, disk)

/-- Removes artifacts that the manifest does not name, and counts them. -/
def collect (cache : Cache) (disk : Disk) : Except StorageError Nat × Disk :=
  let collectShelf (disk : Disk) (shelf : Shelf) :=
    cache.archive.collect disk shelf.directory (cache.manifest.liveKeys shelf)
  match collectShelf disk .code with
  | (.error error, disk) => (.error error, disk)
  | (.ok codes, disk) =>
    match collectShelf disk .diagnostics with
    | (.error error, disk) => (.error error, disk)
    | (.ok findings, disk) => (.ok (codes + findings), disk)

/-! ### Changing the configuration -/

/-- Records the current texts of all known modules. -/
def recordSnapshots (cache : Cache) : Cache :=
  cache.snapshots.snapshots.foldl (fun cache snapshot =>
    cache.recordContent snapshot.id snapshot.fingerprint) cache

/-- Goes over to another configuration.  Results are stored first; texts and edges carry over, and
modules whose text is not the one that the other namespace recorded count as changed. -/
def reconfigure (cache : Cache) (disk : Disk) (config : Digest) : FlushOutcome × Cache × Disk :=
  let (outcome, cache, disk) := cache.done disk
  if config = cache.config then (outcome, cache, disk)
  else
    let switched : Cache :=
      { cache with
        config, manifest := .fresh cache.tool config, dirty := false, memory := ∅, pending := ∅,
        unobserved := ∅ }
    let (cache, disk) := switched.attach disk
    (outcome, cache.recordSnapshots, disk)

end Cache

end Recompile
