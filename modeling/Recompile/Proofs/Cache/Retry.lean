import Recompile.Proofs.Cache.Alone
import Recompile.Proofs.Cache.Commuting
import Recompile.Proofs.Cache.Flush
import Recompile.Proofs.Storage.Retry

/-!
# Flushes that are tried again

A flush that fails has written some of its files, and perhaps it has recorded the keys of the
pending records already.  Neither is a loss.  The records stay pending, so the next flush writes the
same files (`Cache.flushWrites_retry`), for recording the keys a second time changes nothing
(`Cache.flushedManifest_retry`); and writing files again comes to the same as writing them once
(`Write.runAll_again`).

So as soon as whatever made a flush fail is gone, the next flush leaves what the first one would
have left if nothing had been in its way (`Cache.failed_flush_leaves_no_trace`). -/

namespace Recompile

/-! ### Steps that are taken again -/

section Folds

variable {α β : Type} {step : β → α → β} {items : List α}

/-- A step that commutes with several others can be taken before or after them. -/
lemma foldl_step_comm {item : α}
    (hcomm : ∀ other ∈ items, ∀ state, step (step state item) other = step (step state other) item)
    (state : β) : step (items.foldl step state) item = items.foldl step (step state item) := by
  induction items generalizing state with
  | nil => rfl
  | cons first rest ih =>
    rw [List.foldl_cons, List.foldl_cons, hcomm first List.mem_cons_self]
    apply ih
    intro other hother
    exact hcomm other (List.mem_cons_of_mem _ hother)

/-- Steps that commute, and of which each one changes nothing a second time, change nothing a second
time. -/
lemma foldl_foldl_self
    (hcomm : items.Pairwise fun item other =>
      ∀ state, step (step state item) other = step (step state other) item)
    (hidem : ∀ item ∈ items, ∀ state, step (step state item) item = step state item) (state : β) :
    items.foldl step (items.foldl step state) = items.foldl step state := by
  induction items generalizing state with
  | nil => rfl
  | cons first rest ih =>
    obtain ⟨hfirst, hrest⟩ := List.pairwise_cons.mp hcomm
    have hagain : ∀ item ∈ rest, ∀ state, step (step state item) item = step state item :=
      fun item hitem => hidem item (List.mem_cons_of_mem _ hitem)
    calc (first :: rest).foldl step ((first :: rest).foldl step state)
        = rest.foldl step (step (rest.foldl step (step state first)) first) := rfl
      _ = rest.foldl step (rest.foldl step (step (step state first) first)) := by
          rw [foldl_step_comm hfirst]
      _ = rest.foldl step (rest.foldl step (step state first)) := by
          rw [hidem first List.mem_cons_self]
      _ = rest.foldl step (step state first) := ih hrest hagain (step state first)

end Folds

/-! ### Manifests -/

namespace Manifest

/-- Changing the state of a module twice is changing it once. -/
lemma update_update (manifest : Manifest) (id : ModuleId) (change next : FileState → FileState) :
    (manifest.update id change).update id next =
      manifest.update id fun state => next (change state) := by
  have hstate := manifest.state_update id id change
  rw [if_pos rfl] at hstate
  have hfiles : ((manifest.update id change).update id next).files =
      (manifest.update id fun state => next (change state)).files := by
    refine Std.ExtTreeMap.ext_getElem? fun place => ?_
    unfold update at hstate ⊢
    simp only [Std.ExtTreeMap.getElem?_insert, hstate]
    split_ifs <;> rfl
  exact congrArg (fun files => { manifest with files }) hfiles

/-- Recording a key again changes nothing. -/
lemma recordKey_self (manifest : Manifest) (shelf : Shelf) (id : ModuleId) (key : String) :
    (manifest.recordKey shelf id key).recordKey shelf id key = manifest.recordKey shelf id key := by
  unfold recordKey
  rw [update_update]
  congr 1
  funext state
  cases shelf <;> rfl

/-- Recording the keys of two slots commutes. -/
lemma recordKey_comm (manifest : Manifest) {slot other : Slot} (hne : slot ≠ other)
    (key next : String) :
    (manifest.recordKey slot.shelf slot.file key).recordKey other.shelf other.file next =
      (manifest.recordKey other.shelf other.file next).recordKey slot.shelf slot.file key := by
  apply update_comm
  intro hfile state
  obtain ⟨shelf, file⟩ := slot
  obtain ⟨shelf', file'⟩ := other
  obtain rfl : file = file' := hfile
  cases shelf <;> cases shelf' <;> first | rfl | exact absurd rfl hne

end Manifest

namespace Cache

variable {cache after : Cache} {disk left : Disk}

/-- There is one pending record for each slot. -/
lemma pairwise_pendingRecords (cache : Cache) :
    cache.pendingRecords.Pairwise fun entry other => entry.1 ≠ other.1 := by
  unfold pendingRecords
  rw [List.pairwise_filterMap]
  apply (Std.ExtTreeSet.distinct_toList (t := cache.pending)).imp
  intro slot other hne entry hentry next hnext
  obtain ⟨record, -, rfl⟩ := Option.map_eq_some_iff.mp hentry
  obtain ⟨record', -, rfl⟩ := Option.map_eq_some_iff.mp hnext
  rintro rfl
  exact hne Std.ReflCmp.compare_self

/-- What is pending does not depend on the manifest. -/
lemma pendingRecords_manifest (cache : Cache) (manifest : Manifest) :
    ({ cache with manifest } : Cache).pendingRecords = cache.pendingRecords :=
  rfl

/-- Recording the keys of the pending records again changes nothing. -/
lemma recordKeys_self (cache : Cache) (manifest : Manifest) :
    cache.recordKeys cache.pendingRecords (cache.recordKeys cache.pendingRecords manifest) =
      cache.recordKeys cache.pendingRecords manifest := by
  apply foldl_foldl_self
  · apply cache.pairwise_pendingRecords.imp
    intro entry other hne state
    exact state.recordKey_comm hne _ _
  · intro entry _ state
    exact state.recordKey_self _ _ _

/-- Recording keys neither reads nor changes the edges. -/
lemma recordKeys_edges (cache : Cache) (records : List (Slot × Record)) (manifest : Manifest)
    (edges : List Edge) :
    cache.recordKeys records { manifest with edges } =
      { cache.recordKeys records manifest with edges } := by
  induction records generalizing manifest with
  | nil => rfl
  | cons entry rest ih =>
    exact ih (manifest.recordKey entry.1.shelf entry.1.file (entry.2.key cache.config))

/-- A flush after one that has recorded the keys of the pending records records the same
manifest. -/
theorem flushedManifest_retry (cache : Cache) :
    ({ cache with manifest := cache.flushedManifest } : Cache).flushedManifest =
      cache.flushedManifest := by
  have hagain := cache.recordKeys_edges cache.pendingRecords
    (cache.recordKeys cache.pendingRecords cache.manifest) cache.graph.edges
  rw [recordKeys_self] at hagain
  exact congrArg (fun manifest : Manifest => { manifest with edges := cache.graph.edges }) hagain

/-- It does the same writes. -/
theorem flushWrites_retry (cache : Cache) :
    ({ cache with manifest := cache.flushedManifest } : Cache).flushWrites = cache.flushWrites := by
  have hmanifest := cache.flushedManifest_retry
  unfold flushWrites
  rw [hmanifest]
  rfl

/-! ### Flushes as writes -/

/-- The writes of a flush go to files in directories with names. -/
lemma filed_flushWrites (cache : Cache) : ∀ write ∈ cache.flushWrites, write.Filed := by
  intro write hwrite
  rcases mem_flushWrites hwrite with ⟨slot, record, -, rfl⟩ | rfl
  · exact ⟨cache.directory, slot.shelf.directory, _, slot.shelf.isName_directory,
      record.isName_key cache.config, path_artifactWrite cache slot record⟩
  · refine ⟨cache.root, cache.config.hex, "manifest.json", cache.config.isName_hex,
      Manifest.isName_fileName, ?_⟩
    unfold Manifest.saving Manifest.fileName directory
    rfl

/-- If there is something to store, everything is stored exactly if all writes succeed. -/
lemma done_eq_flushed (disk : Disk)
    (hdirty : cache.pending.isEmpty = true → cache.dirty = true) :
    ((cache.done disk).1.isFailed = false ↔
        (Write.runAll cache.flushWrites disk).1 = .ok ()) ∧
      ((cache.done disk).1.isFailed = false → cache.done disk =
        (.flushed cache.pendingRecords.length,
          { cache with manifest := cache.flushedManifest, pending := ∅, dirty := false },
          (Write.runAll cache.flushWrites disk).2)) := by
  have hwrites : cache.flushWrites =
      cache.artifactWrites ++ [cache.flushedManifest.saving cache.directory] := by
    unfold flushWrites
    apply if_neg
    rw [Bool.and_eq_true, Bool.not_eq_true', not_and, Bool.not_eq_false]
    exact hdirty
  have hdisk := cache.disk_done disk
  rw [hwrites, Write.runAll_append] at hdisk ⊢
  rcases cache.done_cases disk with ⟨hempty, hclean, -⟩ | ⟨-, ⟨error, left, hrun, hdone⟩ |
    ⟨error, written, left, hrun, hsave, hdone⟩ | ⟨written, left, hrun, hsave, hdone⟩⟩
  · rw [hdirty hempty] at hclean
    cases hclean
  · have hfailed : (FlushOutcome.failed error).isFailed ≠ false := Bool.noConfusion
    rw [hdone, hrun]
    exact ⟨iff_of_false hfailed (fun hok => nomatch hok), fun h => absurd h hfailed⟩
  · have hfailed : (FlushOutcome.failed error).isFailed ≠ false := Bool.noConfusion
    unfold Manifest.save at hsave
    rw [hdone, hrun]
    simp only [Write.runAll_cons, hsave]
    exact ⟨iff_of_false hfailed (fun hok => nomatch hok), fun h => absurd h hfailed⟩
  · unfold Manifest.save at hsave
    rw [hdone, hrun]
    simp only [Write.runAll_cons, hsave]
    exact ⟨⟨fun _ => rfl, fun _ => rfl⟩, fun _ => rfl⟩

/-- A flush that fails has something to store.  It leaves the cache as it is, except that the keys
of the pending records may be recorded. -/
lemma cache_of_failed {error : StorageError} (h : cache.done disk = (.failed error, after, left)) :
    (cache.pending.isEmpty = true → cache.dirty = true) ∧
      (after = cache ∨ after = { cache with manifest := cache.flushedManifest }) := by
  rcases cache.done_cases disk with ⟨-, -, hdone⟩ | ⟨hdirty, ⟨error, left, -, hdone⟩ |
    ⟨error, written, left, -, -, hdone⟩ | ⟨written, left, -, -, hdone⟩⟩
  · rw [hdone] at h
    cases h
  · rw [hdone] at h
    cases h
    exact ⟨hdirty, .inl rfl⟩
  · rw [hdone] at h
    cases h
    exact ⟨hdirty, .inr rfl⟩
  · rw [hdone] at h
    cases h

/-- It changes no file but the artifacts of pending records. -/
lemma content?_of_failed {error : StorageError}
    (h : cache.done disk = (.failed error, after, left)) {location : Location}
    (hlocation : ∀ entry ∈ cache.pendingRecords,
      location ≠ cache.archive.locate entry.1.shelf (entry.2.key cache.config)) :
    left.content? location = disk.content? location := by
  have hartifacts : (Write.runAll cache.artifactWrites disk).2.content? location =
      disk.content? location := by
    rcases Write.content?_runAll cache.artifactWrites disk location with
      hsame | ⟨write, hwrite, hplace, -⟩
    · exact hsame
    · obtain ⟨⟨slot, record⟩, hrecord, rfl⟩ := List.mem_map.mp hwrite
      rw [place_artifactWrite] at hplace
      have hne := hlocation _ hrecord
      exact absurd hplace.symm hne
  rcases cache.done_cases disk with ⟨-, -, hdone⟩ | ⟨-, ⟨error, left, hrun, hdone⟩ |
    ⟨error, written, left, hrun, hsave, hdone⟩ | ⟨written, left, -, -, hdone⟩⟩
  · rw [hdone] at h
    cases h
  · rw [hdone] at h
    cases h
    rwa [hrun] at hartifacts
  · rw [hdone] at h
    cases h
    rw [hrun] at hartifacts
    exact (Write.content?_run_error hsave location).trans hartifacts
  · rw [hdone] at h
    cases h

/-- A flush that fails leaves what the cache knows as it is, and every file but artifacts of pending
records.  Once a flush would succeed because obstacles were removed, the next one leaves the cache
and the disk that it would have left without the one that failed, and counts as many artifacts. -/
theorem failed_flush_leaves_no_trace {error : StorageError}
    (h : cache.done disk = (.failed error, after, left)) :
    (after.graph = cache.graph ∧ after.snapshots = cache.snapshots ∧
        after.memory = cache.memory ∧ after.pending = cache.pending ∧
        after.dirty = cache.dirty ∧ after.unobserved = cache.unobserved ∧
        ∀ id, after.generation id = cache.generation id ∧
          after.manifest.content? id = cache.manifest.content? id) ∧
      (∀ location content, disk.content? location = some content →
        (∀ entry ∈ cache.pendingRecords,
          location ≠ cache.archive.locate entry.1.shelf (entry.2.key cache.config)) →
        left.content? location = some content) ∧
      ∀ obstacles : List Location,
        (cache.done (disk.without obstacles)).1.isFailed = false →
        (∃ count, (cache.done (disk.without obstacles)).1 = .flushed count) ∧
          after.done (left.without obstacles) = cache.done (disk.without obstacles) := by
  obtain ⟨hdirty, hafter⟩ := cache_of_failed h
  refine ⟨?_, ?_, ?_⟩
  · have hgeneration := cache.generation_done disk
    have hcontent := cache.content?_manifest_done disk
    rw [h] at hgeneration hcontent
    rcases hafter with rfl | rfl
    · exact ⟨rfl, rfl, rfl, rfl, rfl, rfl, fun id => ⟨rfl, rfl⟩⟩
    · exact ⟨rfl, rfl, rfl, rfl, rfl, rfl, fun id => ⟨hgeneration id, hcontent id⟩⟩
  · intro location content hcontent hlocation
    exact (content?_of_failed h hlocation).trans hcontent
  · intro obstacles hok
    obtain ⟨hiff, hflushed⟩ := done_eq_flushed (disk.without obstacles) hdirty
    -- What the failed flush left differs only by what its writes do, also without the obstacles.
    have hleft : left = (Write.runAll cache.flushWrites disk).2 := by
      rw [← cache.disk_done, h]
    have halters : Write.Alters cache.flushWrites (disk.without obstacles)
        (left.without obstacles) := by
      rw [hleft]
      exact (Write.alters_runAll cache.filed_flushWrites disk).without obstacles
    have hrun : Write.runAll cache.flushWrites (disk.without obstacles) =
        (.ok (), (Write.runAll cache.flushWrites (disk.without obstacles)).2) :=
      Prod.ext (hiff.mp hok) rfl
    have hagain := Write.runAll_again cache.filed_flushWrites halters hrun
    refine ⟨⟨_, congrArg Prod.fst (hflushed hok)⟩, ?_⟩
    rw [hflushed hok]
    -- The cache that the failed flush left does the same writes and records the same manifest.
    have hretry : ∀ retried : Cache, (retried.pending.isEmpty = true → retried.dirty = true) →
        retried.flushWrites = cache.flushWrites → retried.done (left.without obstacles) =
          (.flushed retried.pendingRecords.length,
            { retried with manifest := retried.flushedManifest, pending := ∅, dirty := false },
            (Write.runAll cache.flushWrites (disk.without obstacles)).2) := by
      intro retried hdirtyRetried hwrites
      obtain ⟨hiff', hflushed'⟩ := done_eq_flushed (left.without obstacles) hdirtyRetried
      rw [hwrites, hagain] at hiff' hflushed'
      exact hflushed' (hiff'.mpr rfl)
    rcases hafter with heq | heq
    · rw [heq]
      exact hretry cache hdirty rfl
    · have hnext := hretry { cache with manifest := cache.flushedManifest } hdirty
        cache.flushWrites_retry
      rw [pendingRecords_manifest, flushedManifest_retry] at hnext
      rw [heq, hnext]

/-- After an output was recorded, there can be a directory where the manifest is to be written. The
artifact is written before the manifest cannot be. -/
theorem failed_flush_leaves_no_trace_answered :
    ∃ (cache after : Cache) (disk left : Disk) (error : StorageError) (obstacles : List Location),
      cache.done disk = (.failed error, after, left) ∧ cache.pendingRecords.length = 1 ∧
      (cache.done (disk.without obstacles)).1.isFailed = false ∧
      after.done (left.without obstacles) = cache.done (disk.without obstacles) := by
  obtain ⟨cache, hcache⟩ : ∃ cache, cache = World.answered.cache := ⟨_, rfl⟩
  obtain ⟨path, hpath⟩ : ∃ path, path = cache.directory.join ⟨"manifest.json"⟩ := ⟨_, rfl⟩
  obtain ⟨disk, hdisk⟩ : ∃ disk, disk = (Disk.empty.makeDirectories path).2 := ⟨_, rfl⟩
  have hevaluated : cache.pendingRecords.length = 1 ∧ (cache.done disk).1.isFailed = true ∧
      (cache.done (disk.without [path.place])).1.isFailed = false := by
    rw [hdisk, hpath, hcache]
    decide +kernel
  obtain ⟨hpending, hfailed, hok⟩ := hevaluated
  obtain ⟨⟨outcome, after, left⟩, hdone⟩ : ∃ result, result = cache.done disk := ⟨_, rfl⟩
  rw [← hdone] at hfailed
  cases outcome with
  | clean => cases hfailed
  | flushed count => cases hfailed
  | failed error =>
    obtain ⟨-, -, hretry⟩ := failed_flush_leaves_no_trace hdone.symm
    exact ⟨cache, after, disk, left, error, [path.place], hdone.symm, hpending, hok,
      (hretry _ hok).2⟩

end Cache

end Recompile
