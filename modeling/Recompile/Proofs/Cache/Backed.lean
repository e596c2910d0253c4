import Recompile.Proofs.Cache.Flush

/-!
# Records that are backed by the archive

A record in memory that is not pending is backed: the manifest names its artifact, and the archive
gives the record back (`Cache.Backed`).  A record comes into memory pending, when it is kept, or out
of the archive, when it is fetched; and what a flush stores can be read back where it was stored
(`Cache.Backed.read_save_of_pending`).

So if keys are unique and the root is left alone, everything in memory is backed: over flushes, also
failed ones, over collections and whatever others do elsewhere (`World.Alone.backed`).
-/

namespace Recompile

/-- The key of an artifact is not empty. -/
lemma artifactKey_ne_empty (file : ModuleId) (content config : Digest) (generation : UInt64) :
    artifactKey file content config generation ≠ "" := by
  unfold artifactKey
  intro hempty
  have hname := (Digest.ofParts [Bytes.ofText file.text, content.bytes, config.bytes,
    Bytes.littleEndian 8 generation.toNat]).isName_hex
  rw [hempty] at hname
  exact absurd hname.not_idle (by decide)

/-! ### What shelves keep -/

/-- A shelf keeps all that it has kept of a record. -/
lemma Record.onShelf?_of_onShelf? {record found : Record} {shelf : Shelf}
    (h : record.onShelf? shelf = some found) : found.onShelf? shelf = some found := by
  cases shelf <;> unfold onShelf? at h ⊢ <;> simp only at h ⊢ <;> split_ifs at h with hsome <;>
    obtain rfl := Option.some.inj h <;> exact if_pos hsome

/-- The shelf of a part keeps all of a record with that part, if it kept all of the record before or
the record was blank. -/
lemma Part.onShelf?_set {part : Part} {record : Record}
    (h : record.onShelf? part.shelf = some record ∨
      ∃ file content generation, record = .blank file content generation) (value : part.Value) :
    (part.set value record).onShelf? part.shelf = some (part.set value record) := by
  cases part with
  | output =>
    have hfindings : record.findings = none := by
      rcases h with h | ⟨file, content, generation, rfl⟩
      · unfold Part.shelf Record.onShelf? at h
        simp only at h
        split_ifs at h
        rw [← Option.some.inj h]
      · rfl
    unfold Part.shelf Part.set Record.onShelf?
    simp only [hfindings]
    exact if_pos rfl
  | findings pass =>
    have houtput : record.output = none := by
      rcases h with h | ⟨file, content, generation, rfl⟩
      · unfold Part.shelf Record.onShelf? at h
        simp only at h
        split_ifs at h
        rw [← Option.some.inj h]
      · rfl
    unfold Part.shelf Part.set Record.onShelf?
    simp only [houtput]
    exact if_pos rfl

namespace Cache

variable {cache : Cache} {disk : Disk}

/-! ### Stored records -/

/-- A stored record is what a shelf keeps of the artifact that the manifest names. -/
lemma stored?_iff {slot : Slot} {content : Digest} {generation : UInt64} {record : Record} :
    cache.stored? disk slot content generation = some record ↔
      (cache.manifest.state slot.file).key? slot.shelf =
          some (artifactKey slot.file content cache.config generation) ∧
        ∃ payload whole,
          cache.archive.read disk slot.shelf.directory
            (artifactKey slot.file content cache.config generation) = .ok payload ∧
          Record.ofBytes payload = .ok whole ∧
          whole.answers slot.file content generation = true ∧
          whole.onShelf? slot.shelf = some record := by
  unfold stored?
  simp only
  split_ifs with hkey
  · cases hread : cache.archive.read disk slot.shelf.directory
        (artifactKey slot.file content cache.config generation) with
    | error error => simp
    | ok payload =>
      cases hrecord : Record.ofBytes payload with
      | error fault => simp [hrecord]
      | ok whole => by_cases hanswers : whole.answers slot.file content generation <;>
          simp [hkey, hrecord, hanswers]
  · simp [hkey]

/-- A stored record stays stored while the manifest names it and its artifact can be read. -/
lemma stored?_mono {after : Cache} {left : Disk} {slot : Slot} {content : Digest}
    {generation : UInt64} {record : Record} (hroot : after.root = cache.root)
    (hconfig : after.config = cache.config) (htool : after.tool = cache.tool)
    (hkey : (cache.manifest.state slot.file).key? slot.shelf =
        some (artifactKey slot.file content cache.config generation) →
      (after.manifest.state slot.file).key? slot.shelf =
        some (artifactKey slot.file content cache.config generation))
    (hread : ∀ raw, (cache.manifest.state slot.file).key? slot.shelf =
        some (artifactKey slot.file content cache.config generation) → ¬ raw.Meaningless →
      disk.read (cache.archive.pathOf slot.shelf.directory
        (artifactKey slot.file content cache.config generation)) = .ok raw →
      left.read (cache.archive.pathOf slot.shelf.directory
        (artifactKey slot.file content cache.config generation)) = .ok raw)
    (h : cache.stored? disk slot content generation = some record) :
    after.stored? left slot content generation = some record := by
  obtain ⟨hnamed, payload, whole, hpayload, hrest⟩ := stored?_iff.mp h
  have harchive : after.archive = cache.archive := by
    unfold archive directory
    rw [hroot, hconfig, htool]
  refine stored?_iff.mpr ?_
  rw [hconfig, harchive]
  refine ⟨hkey hnamed, payload, whole, ?_, hrest⟩
  obtain ⟨raw, hraw, hartifact⟩ := Archive.read_eq_ok.mp hpayload
  exact Archive.read_eq_ok.mpr ⟨raw, hread raw hnamed
    (Bytes.not_meaningless_of_payload hartifact) hraw, hartifact⟩

/-- What is stored does not depend on what is in memory. -/
lemma stored?_frame {after : Cache} (hroot : after.root = cache.root)
    (hconfig : after.config = cache.config) (htool : after.tool = cache.tool)
    (hmanifest : after.manifest = cache.manifest) : after.stored? = cache.stored? := by
  unfold stored? archive directory
  rw [hroot, hconfig, htool, hmanifest]

/-- What is stored is not collected. -/
lemma stored?_collect {slot : Slot} {content : Digest} {generation : UInt64} {record : Record}
    (hspelled : disk.Spelled) (h : cache.stored? disk slot content generation = some record) :
    cache.stored? (cache.collect disk).2 slot content generation = some record := by
  refine stored?_mono rfl rfl rfl id (fun raw hkey _ hread => ?_) h
  refine (read_collect hspelled fun shelf name _ hdead hplace => ?_).mpr hread
  rw [Archive.place_pathOf _ _ (isName_artifact _ _ _ _), locate_archive] at hplace
  obtain ⟨-, rfl, rfl⟩ := artifact_injective hplace
  rw [Archive.isDead_of_mem (artifactKey_ne_empty _ _ _ _) (Manifest.mem_liveKeys hkey)] at hdead
  cases hdead

/-! ### Backed records -/

/-- The records in memory are what their shelves keep, and those that are not pending are stored, if
they can be read back at all. -/
structure Backed (cache : Cache) (disk : Disk) : Prop where
  /-- Shelves keep all of a record. -/
  shelved : ∀ (slot : Slot) (record : Record), cache.memory[slot]? = some record →
    record.onShelf? slot.shelf = some record
  /-- What is not pending is stored. -/
  stored : ∀ (slot : Slot) (record : Record), cache.memory[slot]? = some record →
    slot ∉ cache.pending → record.Fits cache.tool →
    cache.stored? disk slot record.content record.generation = some record

namespace Backed

/-- Where nothing is in memory everything is backed. -/
lemma of_memory_empty (h : cache.memory = ∅) (disk : Disk) : cache.Backed disk where
  shelved slot record hrecord := by
    rw [h, Std.ExtTreeMap.getElem?_empty] at hrecord
    cases hrecord
  stored slot record hrecord := by
    rw [h, Std.ExtTreeMap.getElem?_empty] at hrecord
    cases hrecord

/-- Hearing of texts leaves everything backed. -/
lemma hears {count : Nat} {after : Cache} (h : cache.Backed disk)
    (hhears : Hears count cache after) : after.Backed disk where
  shelved := by
    rw [hhears.memory]
    exact h.shelved
  stored slot record hrecord hpending hfits := by
    rw [hhears.memory] at hrecord
    rw [hhears.pending] at hpending
    rw [hhears.tool] at hfits
    refine stored?_mono hhears.root hhears.config hhears.tool (fun hkey => ?_)
      (fun _ _ _ => id) (h.stored slot record hrecord hpending hfits)
    rw [hhears.key]
    exact hkey

/-- Records may be added to the memory, if they are pending or stored. -/
lemma replace {after : Cache} (h : cache.Backed disk) (hroot : after.root = cache.root)
    (hconfig : after.config = cache.config) (htool : after.tool = cache.tool)
    (hmanifest : after.manifest = cache.manifest)
    (hmemory : ∀ (slot : Slot) (record : Record), after.memory[slot]? = some record →
      cache.memory[slot]? = some record ∧ (slot ∉ after.pending → slot ∉ cache.pending) ∨
        record.onShelf? slot.shelf = some record ∧ (slot ∈ after.pending ∨
          cache.stored? disk slot record.content record.generation = some record)) :
    after.Backed disk where
  shelved slot record hrecord := by
    rcases hmemory slot record hrecord with ⟨hold, -⟩ | ⟨hshelf, -⟩
    · exact h.shelved slot record hold
    · exact hshelf
  stored slot record hrecord hpending hfits := by
    rw [htool] at hfits
    rw [stored?_frame hroot hconfig htool hmanifest]
    rcases hmemory slot record hrecord with ⟨hold, hsame⟩ | ⟨-, hnew | hstored⟩
    · exact h.stored slot record hold (hsame hpending) hfits
    · exact absurd hnew hpending
    · exact hstored

/-- Recording an import leaves everything backed. -/
lemma addImport (h : cache.Backed disk) (edge : Edge) : (cache.addImport edge).Backed disk := by
  unfold Cache.addImport
  split_ifs
  · exact h
  · exact h.replace rfl rfl rfl rfl fun slot record hrecord => .inl ⟨hrecord, id⟩

/-- On a disk where artifacts can still be read everything is still backed. -/
lemma withDisk {left : Disk} (h : cache.Backed disk)
    (hread : ∀ (slot : Slot) (content : Digest) (generation : UInt64) (raw : Bytes),
      (cache.manifest.state slot.file).key? slot.shelf =
        some (artifactKey slot.file content cache.config generation) → ¬ raw.Meaningless →
      disk.read (cache.archive.pathOf slot.shelf.directory
        (artifactKey slot.file content cache.config generation)) = .ok raw →
      left.read (cache.archive.pathOf slot.shelf.directory
        (artifactKey slot.file content cache.config generation)) = .ok raw) :
    cache.Backed left where
  shelved := h.shelved
  stored slot record hrecord hpending hfits := stored?_mono rfl rfl rfl id
    (hread slot record.content record.generation) (h.stored slot record hrecord hpending hfits)

/-- Fetching a record leaves everything backed. -/
lemma fetch (h : cache.Backed disk) (slot : Slot) (content : Digest) :
    (cache.fetch disk slot content).2.Backed disk := by
  rcases cache.fetch_cases disk slot content with ⟨record, -, heq⟩ | ⟨record, hstored, heq⟩ |
    ⟨-, heq⟩
  · rw [heq]
    exact h
  · rw [heq]
    obtain ⟨-, payload, whole, -, -, hanswers, hshelf⟩ := stored?_iff.mp hstored
    obtain ⟨-, hcontent, hgeneration⟩ := Record.answers_iff.mp hanswers
    obtain ⟨-, hcontent', hgeneration'⟩ := Record.stamp_onShelf? hshelf
    refine h.replace rfl rfl rfl rfl fun other found hfound => ?_
    rw [Std.ExtTreeMap.getElem?_insert] at hfound
    split_ifs at hfound with hslot
    · obtain rfl := Std.LawfulEqOrd.eq_of_compare hslot
      obtain rfl := Option.some.inj hfound
      rw [hcontent', hgeneration', hcontent, hgeneration]
      exact .inr ⟨Record.onShelf?_of_onShelf? hshelf, .inr hstored⟩
    · exact .inl ⟨hfound, id⟩
  · rw [heq]
    exact h

/-- Looking a part up leaves everything backed. -/
lemma lookup (h : cache.Backed disk) (part : Part) (snapshot : Snapshot) :
    (cache.lookup disk part snapshot).2.Backed disk :=
  (h.hears (cache.hears_observe disk snapshot.id)).fetch (part.slot snapshot.id)
    snapshot.fingerprint

/-- What is kept is pending. -/
lemma keep (h : cache.Backed disk) (part : Part) (snapshot : Snapshot) (value : part.Value) :
    (cache.keep part snapshot value).Backed disk := by
  obtain ⟨-, -, -, hbase⟩ := cache.base_spec part snapshot
  have hshelved := Part.onShelf?_set (hbase.symm.imp (h.shelved (part.slot snapshot.id) _)
    fun hblank => ⟨_, _, _, hblank⟩) value
  refine h.replace rfl rfl rfl rfl fun slot record hrecord => ?_
  change (cache.memory.insert (part.slot snapshot.id)
    (part.set value (cache.base part snapshot)))[slot]? = some record at hrecord
  change _ ∧ (slot ∉ cache.pending.insert (part.slot snapshot.id) → _) ∨
    _ ∧ (slot ∈ cache.pending.insert (part.slot snapshot.id) ∨ _)
  rw [Std.ExtTreeMap.getElem?_insert] at hrecord
  rw [Std.ExtTreeSet.mem_insert]
  split_ifs at hrecord with hslot
  · obtain rfl := Option.some.inj hrecord
    obtain rfl := Std.LawfulEqOrd.eq_of_compare hslot
    exact .inr ⟨hshelved, .inl (.inl hslot)⟩
  · exact .inl ⟨hrecord, fun hpending hold => hpending (.inr hold)⟩

/-! ### Flushes -/

/-- A flush leaves the artifact of a record in memory that is not pending. -/
lemma read_done (disk : Disk) {log : List Served} (hrecalls : cache.Recalls log)
    (hunique : KeysUnique log) {slot : Slot} {record : Record}
    (hrecord : cache.memory[slot]? = some record) (hpending : slot ∉ cache.pending) (raw : Bytes)
    (hread : disk.read (cache.archive.pathOf slot.shelf.directory (record.key cache.config)) =
      .ok raw) :
    (cache.done disk).2.2.read
      (cache.archive.pathOf slot.shelf.directory (record.key cache.config)) = .ok raw := by
  have hplace := Archive.place_pathOf cache.archive slot.shelf (record.isName_key cache.config)
  rw [disk_done, ← List.take_length (l := cache.flushWrites)]
  rcases cache.read_flush cache.flushWrites.length
    (hplace.trans (cache.locate_archive slot.shelf (record.key cache.config))) hread with
    hold | ⟨other, found, hfound, hsame, -⟩
  · exact hold
  · obtain ⟨hother, hmemory⟩ := mem_pendingRecords.mp hfound
    rw [hplace] at hsame
    obtain rfl := hrecalls.eq_slot hunique hrecord hmemory hsame
    exact absurd hother hpending

/-- A flush that writes all artifacts stores each pending record, whether or not it goes on to save
the manifest. -/
lemma read_save_of_pending {log : List Served} (hrecalls : cache.Recalls log)
    (hunique : KeysUnique log) {written : Disk}
    (hrun : Write.runAll cache.artifactWrites disk = (.ok (), written)) {slot : Slot}
    {record : Record} (hrecord : (slot, record) ∈ cache.pendingRecords) :
    (cache.flushedManifest.save written cache.directory).2.read
      (cache.archive.pathOf slot.shelf.directory (record.key cache.config)) =
      .ok (Artifact.encode cache.tool record.toBytes) := by
  have hmem : cache.artifactWrite (slot, record) ∈ cache.artifactWrites :=
    List.mem_map.mpr ⟨_, hrecord, rfl⟩
  obtain ⟨write, hwrite, hplace, hread⟩ := Write.read_of_runAll hrun hmem
  obtain ⟨⟨other, found⟩, hfound, rfl⟩ := List.mem_map.mp hwrite
  -- What was written to that place last is the record itself.
  rw [place_artifactWrite, place_artifactWrite] at hplace
  obtain ⟨-, hmemory⟩ := mem_pendingRecords.mp hrecord
  obtain ⟨-, hmemory'⟩ := mem_pendingRecords.mp hfound
  obtain rfl := hrecalls.eq_slot hunique hmemory hmemory' hplace.symm
  obtain rfl := Option.some.inj (hmemory.symm.trans hmemory')
  rw [path_artifactWrite, content_artifactWrite] at hread
  have hplace := Archive.place_pathOf cache.archive slot.shelf (record.isName_key cache.config)
  have hkeeps := (cache.flushedManifest.saving cache.directory).keeps_run written
  have hcontent := cache.content?_save cache.flushedManifest written
    (cache.archive.locate slot.shelf (record.key cache.config))
    (cache.locate_archive _ _ ▸ artifact_ne_manifest)
  rw [← hplace] at hcontent
  exact Disk.read_mono hread hkeeps hcontent

/-- A flush leaves everything backed, however far it goes. -/
theorem done {log : List Served} (h : cache.Backed disk)
    (hrecalls : cache.Recalls log) (hunique : KeysUnique log) :
    (cache.done disk).2.1.Backed (cache.done disk).2.2 := by
  obtain ⟨hroot, hconfig, htool, hmemory, -⟩ := cache.done_frame disk
  refine ⟨fun slot record hrecord => h.shelved slot record (hmemory ▸ hrecord), ?_⟩
  intro slot record hrecord hpending hfits
  rw [hmemory] at hrecord
  rw [htool] at hfits
  have hfile := (hrecalls slot record hrecord).1
  by_cases hold : slot ∈ cache.pending
  · -- It was pending and is not any more, so it was stored.
    have hmem := mem_pendingRecords.mpr ⟨hold, hrecord⟩
    rcases cache.done_cases disk with ⟨-, -, heq⟩ | ⟨-, ⟨error, left, -, heq⟩ |
      ⟨error, written, left, -, -, heq⟩ | ⟨written, left, hrun, hsave, heq⟩⟩
    · rw [heq] at hpending
      exact absurd hold hpending
    · rw [heq] at hpending
      exact absurd hold hpending
    · rw [heq] at hpending
      exact absurd hold hpending
    · have hread := read_save_of_pending hrecalls hunique hrun hmem
      rw [hsave] at hread
      have hfits : record.Fits cache.archive.tool := hfits
      obtain ⟨hpayload, hwhole⟩ := hfits.read hread
      have hkey := key?_flushedManifest_of_mem hmem
      unfold Record.key at hkey hpayload
      rw [hfile] at hkey hpayload
      rw [heq]
      refine stored?_iff.mpr ⟨hkey, _, record, hpayload, hwhole, ?_, h.shelved slot record hrecord⟩
      exact Record.answers_iff.mpr ⟨hfile, rfl, rfl⟩
  · -- It is still stored, under the same key.
    have hstored := h.stored slot record hrecord hold hfits
    refine stored?_mono hroot hconfig htool (fun hkey => ?_) (fun raw _ _ hread => ?_) hstored
    · rcases cache.manifest_done disk with heq | ⟨heq, -⟩
      · rw [heq]
        exact hkey
      · rw [heq]
        exact key?_flushedManifest_of_not_mem hold hkey
    · have hkept := read_done disk hrecalls hunique hrecord hold raw
      unfold Record.key at hkept
      rw [hfile] at hkept
      exact hkept hread

/-- Collecting leaves everything backed. -/
lemma collect (h : cache.Backed disk) (hspelled : disk.Spelled) :
    cache.Backed (cache.collect disk).2 :=
  ⟨h.shelved, fun slot record hrecord hpending hfits =>
    stored?_collect hspelled (h.stored slot record hrecord hpending hfits)⟩

end Backed

end Cache

/-! ### Backed worlds -/

/-- Others leave the artifacts of a cache. -/
lemma Disk.Leaves.read_artifact {cache : Cache} {before after : Disk}
    (h : before.Leaves cache.root after) (shelf : Shelf) (key : String) {raw : Bytes}
    (hmeaning : ¬ raw.Meaningless) :
    after.read (cache.archive.pathOf shelf.directory key) = .ok raw ↔
      before.read (cache.archive.pathOf shelf.directory key) = .ok raw := by
  rw [cache.pathOf_archive]
  exact h.reads _ raw hmeaning

namespace World

variable {world : World} {root : Path} {first : Disk}

/-- Asking for a part leaves everything backed. -/
lemma backed_ask (h : world.cache.Backed world.disk) (part : Part) (snapshot : Snapshot)
    (value : part.Value) : (world.ask part snapshot value).cache.Backed world.disk :=
  cache_ask_induction (motive := fun cache => cache.Backed world.disk) (h.lookup part snapshot)
    fun hlookup => hlookup.keep part snapshot value

/-- Every call leaves everything backed. -/
theorem backed_take (hspelled : world.disk.Spelled) (hrecalls : world.cache.Recalls world.log)
    (hunique : KeysUnique world.log) (h : world.cache.Backed world.disk) {call : Call}
    (hcall : world.Admits call) : (world.take call).cache.Backed (world.take call).disk := by
  cases call with
  | reopen config tool entries =>
    simp only [World.take, put, Cache.openAt]
    exact .of_memory_empty (Cache.attach_frame _ _).2.2.2.1 _
  | submit path text =>
    simp only [World.take]
    exact h.hears (world.cache.hears_submit _ text)
  | addImport edge =>
    simp only [World.take]
    exact h.addImport edge
  | ask part snapshot value => exact backed_ask h part snapshot value
  | done =>
    simp only [World.take, put]
    exact h.done hrecalls hunique
  | collect =>
    simp only [World.take]
    exact h.collect hspelled
  | clean =>
    simp only [World.take, put]
    exact .of_memory_empty rfl _
  | reconfigure config =>
    simp only [World.take, put]
    by_cases hsame : config = world.cache.config
    · rw [hsame, Cache.reconfigure_self]
      exact h.done hrecalls hunique
    · rw [Cache.reconfigure_eq _ _ hsame]
      dsimp only
      refine .of_memory_empty ?_ _
      rw [(Cache.hears_recordSnapshots _).memory, (Cache.attach_frame _ _).2.2.2.1]
      rfl
  | edit disk =>
    simp only [World.take]
    refine h.withDisk fun slot content generation raw _ hmeaning hread => ?_
    have hleaves : world.disk.Leaves world.cache.root disk := hcall
    exact (hleaves.read_artifact slot.shelf _ hmeaning).mpr hread

/-- Where the root is left alone and keys are unique, everything in memory is backed. -/
theorem Alone.backed (h : Alone root first world) (hbare : first.IsBare root.place)
    (hfirst : first.Spelled) (hunique : KeysUnique world.log) :
    world.cache.Backed world.disk := by
  induction h with
  | start config tool entries =>
    simp only [World.start, Cache.openAt]
    exact .of_memory_empty (Cache.attach_frame _ _).2.2.2.1 _
  | @take world h call hcall ih =>
    obtain ⟨later, hlog⟩ := world.log_prefix_take call
    rw [hlog] at hunique
    have hbefore := hunique.of_append
    exact backed_take (h.spelled hfirst) (h.reachable hbare).asked.memory hbefore (ih hbefore) hcall

end World

end Recompile
