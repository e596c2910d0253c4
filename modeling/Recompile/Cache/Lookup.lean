import Recompile.Cache.Basic

/-!
# Looking up results

A lookup takes a snapshot and asks for one part.  It is answered from the record in memory, or else
from the artifact that the manifest names, provided that record is about this module, text and
generation (`Cache.fetch`); a value that is found nowhere is computed and kept (`Cache.answer`).
Whatever is wrong with an artifact only makes the value be computed again.
-/

namespace Recompile.Cache

/-- The record in memory, if it answers questions about this text and generation. -/
def live? (cache : Cache) (slot : Slot) (content : Digest) (generation : UInt64) : Option Record :=
  cache.memory[slot]?.filter fun record => record.answers slot.file content generation

/-- The stored record that the manifest names for this text and generation, if it can be read and
answers questions about them. -/
def stored? (cache : Cache) (disk : Disk) (slot : Slot) (content : Digest) (generation : UInt64) :
    Option Record :=
  let key := artifactKey slot.file content cache.config generation
  if (cache.manifest.state slot.file).key? slot.shelf = some key then
    match cache.archive.read disk slot.shelf.directory key with
    | .error _ => none
    | .ok bytes =>
      match Record.ofBytes bytes with
      | .error _ => none
      | .ok record =>
        if record.answers slot.file content generation then record.onShelf? slot.shelf else none
  else none

/-- The record of a slot for a text at the current generation.  A stored record is taken into
memory. -/
def fetch (cache : Cache) (disk : Disk) (slot : Slot) (content : Digest) :
    Option Record × Cache :=
  let generation := cache.generation slot.file
  match cache.live? slot content generation with
  | some record => (some record, cache)
  | none =>
    match cache.stored? disk slot content generation with
    | some record => (some record, { cache with memory := cache.memory.insert slot record })
    | none => (none, cache)

/-- Looks a part up, without computing it. -/
def lookup (cache : Cache) (disk : Disk) (part : Part) (snapshot : Snapshot) :
    Option part.Value × Cache :=
  let (record, cache) :=
    (cache.observe disk snapshot.id).fetch disk (part.slot snapshot.id) snapshot.fingerprint
  (record.bind part.get?, cache)

/-- Keeps a part that was computed: in the record of this text and generation, if there is one, or
else in a new one. -/
def keep (cache : Cache) (part : Part) (snapshot : Snapshot) (value : part.Value) : Cache :=
  let slot := part.slot snapshot.id
  let content := snapshot.fingerprint
  let generation := cache.generation snapshot.id
  let record :=
    (cache.live? slot content generation).getD (.blank snapshot.id content generation)
  { cache with
    memory := cache.memory.insert slot (part.set value record)
    pending := cache.pending.insert slot }

/-- Looks a part up, and computes and keeps it if it is not found.  Computing may change the state
of whoever computes. -/
def answer {σ : Type} (cache : Cache) (disk : Disk) (part : Part) (snapshot : Snapshot)
    (compute : σ → part.Value × σ) (state : σ) : part.Value × Cache × σ :=
  match cache.lookup disk part snapshot with
  | (some value, cache) => (value, cache, state)
  | (none, cache) =>
    let (value, state) := compute state
    (value, cache.keep part snapshot value, state)

end Recompile.Cache
