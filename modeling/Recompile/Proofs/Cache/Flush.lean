import Recompile.Proofs.Cache.Standing

/-!
# What a flush leaves readable

A flush is a list of writes (`Cache.flushWrites`): the artifacts of the pending records, and then
the manifest.  However many of them take effect, an artifact that could be read before can be read
after them, and holds what it held or a pending record whose artifact has the same place
(`Cache.read_flush`).

Two records have one place only if they have one key.  That the keys of a run are unique is no fact
about caches; it is stated for the questions of the run (`KeysUnique`), and then two records in
memory with one place have one slot (`Cache.Recalls.eq_slot`).  Nor is it one that an artifact can
be read back: the header and the record must not claim more than readers allow (`Record.Fits`).
-/

namespace Recompile

/-! ### Unique keys -/

/-- What was asked for in a run is known by its key. -/
def KeysUnique (log : List Served) : Prop :=
  ∀ stamp other : Stamp, Asked log stamp → Asked log other → stamp.key = other.key → stamp = other

/-- Where keys are unique they were so before. -/
lemma KeysUnique.of_append {log later : List Served} (h : KeysUnique (log ++ later)) :
    KeysUnique log :=
  fun stamp other hstamp hother => h stamp other (hstamp.append later) (hother.append later)

/-- The record is about something that the tool was asked for. -/
def Record.Prompted (log : List Served) : RecordProperty := fun config tool record =>
  ∃ served ∈ log, served.answer.stamp = record.stamp config ∧ served.answer.tool = tool

/-- Then it is about something that was asked for. -/
lemma Record.Prompted.asked {log : List Served} {config : Digest} {tool : String} {record : Record}
    (h : Record.Prompted log config tool record) : Record.Asked log config tool record := by
  obtain ⟨served, hserved, hstamp, -⟩ := h
  exact ⟨served, hserved, hstamp⟩

/-- What a shelf keeps of a record is about the same. -/
lemma Record.prompted_shelved (log : List Served) : (Record.Prompted log).Shelved := by
  intro config tool record found shelf hprompted hshelf
  obtain ⟨hfile, hcontent, hgeneration⟩ := stamp_onShelf? hshelf
  unfold Record.Prompted stamp at hprompted ⊢
  rw [hfile, hcontent, hgeneration]
  exact hprompted

namespace World

variable {world : World}

/-- The log grows. -/
lemma log_prefix_take (world : World) (call : Call) : ∃ later, (world.take call).log =
    world.log ++ later := by
  cases call with
  | ask part snapshot value => exact ⟨_, rfl⟩
  | _ => exact ⟨[], by simp only [World.take, put, List.append_nil]⟩

/-- It grows over several calls. -/
lemma log_prefix_run (world : World) (calls : List Call) : ∃ later, (world.run calls).log =
    world.log ++ later := by
  induction calls generalizing world with
  | nil => exact ⟨[], (List.append_nil _).symm⟩
  | cons call rest ih =>
    obtain ⟨sooner, hsooner⟩ := world.log_prefix_take call
    obtain ⟨later, hlater⟩ := ih (world.take call)
    refine ⟨sooner ++ later, ?_⟩
    rw [← List.append_assoc, ← hsooner]
    exact hlater

/-- Where all questions are about the same, its key is unique. -/
lemma keysUnique_of_stamp {log : List Served} {stamp : Stamp}
    (h : ∀ served ∈ log, served.answer.stamp = stamp) : KeysUnique log := by
  rintro - - ⟨one, hone, rfl⟩ ⟨two, htwo, rfl⟩ -
  rw [h one hone, h two htwo]

/-- So it is where there was one question. -/
lemma keysUnique_of_length {log : List Served} (h : log.length = 1) : KeysUnique log := by
  obtain ⟨served, rfl⟩ := List.length_eq_one_iff.mp h
  exact keysUnique_of_stamp (List.forall_mem_singleton.mpr rfl)

/-- So it is where the output of one module was asked for. -/
lemma keysUnique_answered : KeysUnique answered.log :=
  keysUnique_of_length (by decide +kernel)

/-- In reachable worlds every record is about something that its tool was asked for. -/
theorem Reachable.prompted {root : Path} (h : Reachable root world) :
    world.Keeps (Record.Prompted world.log) := by
  induction h with
  | start hbare config tool entries => exact keeps_start hbare config tool entries
  | @take world _ call hcall ih =>
    obtain ⟨later, hlog⟩ := world.log_prefix_take call
    have hmono : ∀ config tool record, Record.Prompted world.log config tool record →
        Record.Prompted (world.take call).log config tool record := by
      intro config tool record ⟨served, hserved, hstamp⟩
      rw [hlog]
      exact ⟨served, List.mem_append_left _ hserved, hstamp⟩
    refine Keeps.take (Cache.Keeps.mono ih hmono) hcall fun part snapshot value hask => ?_
    subst hask
    have hlookup := (Cache.Keeps.mono ih hmono).lookup (Record.prompted_shelved _) part snapshot
    simp only [World.take] at hlookup ⊢
    unfold World.ask given at hlookup ⊢
    rcases world.cache.answer_cases world.disk part snapshot (fun _ => (value, true)) false with
      ⟨found, -, heq⟩ | ⟨-, heq⟩
    · rw [heq] at hlookup ⊢
      exact keeps_mk hlookup
    · -- What is kept was asked for just now.
      rw [heq] at hlookup ⊢
      refine keeps_mk (hlookup.keep part snapshot value
        fun record hfile hcontent hgeneration _ => ?_)
      obtain ⟨hfile', hcontent', hgeneration'⟩ := part.stamp_set value record
      refine ⟨_, List.mem_append_right _ (List.mem_singleton_self _), ?_, rfl⟩
      unfold Record.stamp Answer.stamp answerOf
      rw [hfile', hcontent', hgeneration', hfile, hcontent, hgeneration]
      rfl

/-- In reachable worlds every record is about something that was asked for. -/
lemma Reachable.asked {root : Path} (h : Reachable root world) :
    world.Keeps (Record.Asked world.log) :=
  Cache.Keeps.mono h.prompted fun _ _ _ hprompted => hprompted.asked

end World

/-! ### Records that can be read back -/

/-- The artifact of a record does not claim more than readers allow. -/
structure Record.Fits (tool : String) (record : Record) : Prop where
  /-- The header. -/
  header : Artifact.headerCost tool record.toBytes ≤ Artifact.maxHeader
  /-- The record. -/
  size : LawfulPacked.cost record ≤ Record.maxSize

/-- A record that fits is read back from its artifact. -/
lemma Record.Fits.read {archive : Archive} {disk : Disk} {subdirectory key : String}
    {record : Record} (h : record.Fits archive.tool)
    (hread : disk.read (archive.pathOf subdirectory key) =
      .ok (Artifact.encode archive.tool record.toBytes)) :
    archive.read disk subdirectory key = .ok record.toBytes ∧
      Record.ofBytes record.toBytes = .ok record :=
  ⟨Archive.read_eq_ok.mpr ⟨_, hread, Artifact.payload_encode h.header⟩,
    Record.ofBytes_toBytes h.size⟩

namespace Cache

variable {cache : Cache} {disk : Disk}

/-! ### The writes of a flush -/

/-- The writes of a flush, in their order. -/
def flushWrites (cache : Cache) : List Write :=
  if cache.pending.isEmpty && !cache.dirty then []
  else cache.artifactWrites ++ [cache.flushedManifest.saving cache.directory]

/-- A flush is nothing but its writes. -/
lemma disk_done (cache : Cache) (disk : Disk) :
    (cache.done disk).2.2 = (Write.runAll cache.flushWrites disk).2 := by
  unfold done flushWrites
  split_ifs
  · rfl
  · rw [Write.runAll_append]
    cases hrun : Write.runAll cache.artifactWrites disk with
    | mk result written =>
      cases result with
      | error error => rfl
      | ok done =>
        simp only
        unfold Manifest.save
        rw [Write.runAll_cons]
        cases hsave : (cache.flushedManifest.saving cache.directory).run written with
        | mk saved left => cases saved <;> rfl

/-- A write of a flush is that of a pending record or that of the manifest. -/
lemma mem_flushWrites {write : Write} (h : write ∈ cache.flushWrites) :
    (∃ slot record, (slot, record) ∈ cache.pendingRecords ∧
        write = cache.artifactWrite (slot, record)) ∨
      write = cache.flushedManifest.saving cache.directory := by
  unfold flushWrites at h
  split_ifs at h
  · cases h
  · rcases List.mem_append.mp h with hwrite | hwrite
    · obtain ⟨⟨slot, record⟩, hrecord, rfl⟩ := List.mem_map.mp hwrite
      exact .inl ⟨slot, record, hrecord, rfl⟩
    · exact .inr (List.mem_singleton.mp hwrite)

/-- Where the artifact of a record is written. -/
lemma place_artifactWrite (cache : Cache) (slot : Slot) (record : Record) :
    (cache.artifactWrite (slot, record)).path.place =
      cache.archive.locate slot.shelf (record.key cache.config) := by
  rw [path_artifactWrite]
  exact Archive.place_pathOf _ _ (record.isName_key cache.config)

/-- However many writes of a flush take effect, an artifact that could be read before can be read
after them, and holds what it held or a pending record that belongs there. -/
theorem read_flush (cache : Cache) (count : Nat) {path : Path} {config directory name : String}
    {content : Bytes} (hplace : path.place = cache.root.place ++ [config, directory, name])
    (h : disk.read path = .ok content) :
    (Write.runAll (cache.flushWrites.take count) disk).2.read path = .ok content ∨
      ∃ slot record, (slot, record) ∈ cache.pendingRecords ∧
        path.place = cache.archive.locate slot.shelf (record.key cache.config) ∧
        (Write.runAll (cache.flushWrites.take count) disk).2.read path =
          .ok (Artifact.encode cache.tool record.toBytes) := by
  refine (Write.read_runAll (cache.flushWrites.take count) h).imp_right ?_
  rintro ⟨write, hwrite, hwritten, hread⟩
  rcases mem_flushWrites (List.mem_of_mem_take hwrite) with ⟨slot, record, hrecord, rfl⟩ | rfl
  · rw [place_artifactWrite] at hwritten
    rw [content_artifactWrite] at hread
    exact ⟨slot, record, hrecord, hwritten.symm, hread⟩
  · rw [hplace, Manifest.saving, place_manifest] at hwritten
    exact absurd hwritten.symm artifact_ne_manifest

/-- The first writes of a flush are some artifacts, or all artifacts and the manifest. -/
lemma take_flushWrites (cache : Cache) (count : Nat) :
    (∃ fewer, cache.flushWrites.take count = cache.artifactWrites.take fewer) ∨
      cache.flushWrites.take count =
        cache.artifactWrites ++ [cache.flushedManifest.saving cache.directory] := by
  unfold flushWrites
  split_ifs
  · exact .inl ⟨0, by rw [List.take_nil, List.take_zero]⟩
  · rw [List.take_append]
    rcases Nat.lt_or_ge cache.artifactWrites.length count with hlt | hge
    · have hone : 1 ≤ count - cache.artifactWrites.length := Nat.le_sub_of_add_le' hlt
      exact .inr (by rw [List.take_of_length_le hlt.le, List.take_of_length_le hone])
    · exact .inl ⟨count, by rw [Nat.sub_eq_zero_of_le hge, List.take_zero, List.append_nil]⟩

/-- Writing artifacts changes no manifest. -/
lemma content?_artifactWrites (cache : Cache) {writes : List Write}
    (h : ∀ write ∈ writes, write ∈ cache.artifactWrites) (disk : Disk) (config : Digest) :
    (Write.runAll writes disk).2.content? (cache.root.place ++ [config.hex, "manifest.json"]) =
      disk.content? (cache.root.place ++ [config.hex, "manifest.json"]) := by
  rcases Write.content?_runAll writes disk (cache.root.place ++ [config.hex, "manifest.json"]) with
    hold | ⟨write, hwrite, hplace, -⟩
  · exact hold
  · obtain ⟨⟨slot, record⟩, -, rfl⟩ := List.mem_map.mp (h write hwrite)
    rw [place_artifactWrite, locate_archive] at hplace
    exact absurd hplace artifact_ne_manifest

/-- However many writes of a flush take effect, either no manifest changes, or all artifacts were
written and the manifest was saved. -/
theorem flush_cases (cache : Cache) (disk : Disk) (count : Nat) :
    (∀ config : Digest, (Write.runAll (cache.flushWrites.take count) disk).2.content?
        (cache.root.place ++ [config.hex, "manifest.json"]) =
          disk.content? (cache.root.place ++ [config.hex, "manifest.json"])) ∨
      ∃ written left, Write.runAll cache.artifactWrites disk = (.ok (), written) ∧
        cache.flushedManifest.save written cache.directory = (.ok (), left) ∧
        (Write.runAll (cache.flushWrites.take count) disk).2 = left := by
  rcases cache.take_flushWrites count with ⟨fewer, htake⟩ | htake
  · rw [htake]
    exact .inl (cache.content?_artifactWrites
      (fun write hwrite => List.mem_of_mem_take hwrite) disk)
  · have hartifacts := cache.content?_artifactWrites (fun write => id) disk
    rw [htake, Write.runAll_append]
    cases hrun : Write.runAll cache.artifactWrites disk with
    | mk result written =>
      rw [hrun] at hartifacts
      cases result with
      | error error => exact .inl hartifacts
      | ok done =>
        simp only
        rw [Write.runAll_cons]
        cases hsave : (cache.flushedManifest.saving cache.directory).run written with
        | mk saved left =>
          cases saved with
          | error error =>
            exact .inl fun config => (Write.content?_run_error hsave _).trans (hartifacts config)
          | ok done => exact .inr ⟨written, left, rfl, hsave, rfl⟩

/-- However many writes of a flush take effect, the records keep every property that they had. -/
theorem Keeps.flush {property : RecordProperty} (h : cache.Keeps property disk) (count : Nat) :
    cache.Keeps property (Write.runAll (cache.flushWrites.take count) disk).2 where
  memory := h.memory
  archives config directory name tool content payload record hcontent hpayload hrecord := by
    rcases Write.content?_runAll (cache.flushWrites.take count) disk
      (cache.root.place ++ [config.hex, directory, name]) with hold | ⟨write, hwrite, hplace, hnew⟩
    · exact h.archives config directory name tool content payload record (hold.symm.trans hcontent)
        hpayload hrecord
    · rcases mem_flushWrites (List.mem_of_mem_take hwrite) with ⟨slot, stored, hstored, rfl⟩ | rfl
      · rw [content_artifactWrite] at hnew
        rw [place_artifactWrite] at hplace
        have hstores : cache.Stores (cache.root.place ++ [config.hex, directory, name]) content :=
          ⟨slot, stored, (mem_pendingRecords.mp hstored).2, hplace.symm,
            Option.some.inj (hcontent.symm.trans hnew)⟩
        obtain ⟨rfl, rfl, hname, other, -, hother⟩ := hstores.record hpayload hrecord
        exact ⟨hname, (h.memory other record hother).2⟩
      · rw [Manifest.saving, place_manifest] at hplace
        exact absurd hplace.symm artifact_ne_manifest

/-! ### Places and slots -/

/-- The records in memory are about the modules of their slots, and about something that was asked
for. -/
def Recalls (cache : Cache) (log : List Served) : Prop :=
  ∀ (slot : Slot) (record : Record), cache.memory[slot]? = some record →
    record.file = slot.file ∧ Record.Asked log cache.config cache.tool record

/-- Where keys are unique, two records in memory with one place have one slot. -/
theorem Recalls.eq_slot {log : List Served} (h : cache.Recalls log)
    (hunique : KeysUnique log) {slot other : Slot} {record found : Record}
    (hrecord : cache.memory[slot]? = some record) (hfound : cache.memory[other]? = some found)
    (hplace : cache.archive.locate slot.shelf (record.key cache.config) =
      cache.archive.locate other.shelf (found.key cache.config)) : slot = other := by
  obtain ⟨hshelf, hkey⟩ := Archive.locate_injective _ hplace
  obtain ⟨hfile, hasked⟩ := h slot record hrecord
  obtain ⟨hfile', hasked'⟩ := h other found hfound
  have hstamp := congrArg Stamp.file (hunique _ _ hasked hasked' hkey)
  cases slot
  cases other
  simp only [Slot.mk.injEq]
  exact ⟨hshelf, hfile.symm.trans (hstamp.trans hfile')⟩

end Cache

/-! ### The keys of a flush -/

/-- A recorded key is the one that was recorded last. -/
lemma Manifest.state_recordKey (manifest : Manifest) (shelf other : Shelf) (id file : ModuleId)
    (key : String) : ((manifest.recordKey shelf id key).state file).key? other =
      if file = id ∧ other = shelf then some key else (manifest.state file).key? other := by
  unfold recordKey
  rw [state_update]
  by_cases hfile : file = id
  · subst hfile
    rw [if_pos rfl]
    by_cases hother : other = shelf
    · subst hother
      rw [if_pos ⟨rfl, rfl⟩]
      cases other <;> rfl
    · rw [if_neg fun hboth => hother hboth.2]
      cases shelf <;> cases other <;> first | rfl | exact absurd rfl hother
  · rw [if_neg hfile, if_neg fun hboth => hfile hboth.1]

/-- The keys that a manifest names are live. -/
lemma Manifest.mem_liveKeys {manifest : Manifest} {id : ModuleId} {shelf : Shelf} {key : String}
    (h : (manifest.state id).key? shelf = some key) : key ∈ manifest.liveKeys shelf := by
  unfold state at h
  cases hfile : manifest.files[id]? with
  | none =>
    rw [hfile] at h
    cases shelf <;> cases h
  | some state =>
    rw [hfile] at h
    exact List.mem_filterMap.mpr
      ⟨(id, state), Std.ExtTreeMap.mem_toList_iff_getElem?_eq_some.mpr hfile, h⟩

namespace Cache

variable {cache : Cache} {disk : Disk}

/-- After keys were recorded a slot has the key of its records, if they have one key, or else the
key that it had. -/
lemma key?_recordKeys (cache : Cache) {records : List (Slot × Record)} {slot : Slot} {key : String}
    (hkeys : ∀ record, (slot, record) ∈ records → record.key cache.config = key)
    (manifest : Manifest)
    (h : (∃ record, (slot, record) ∈ records) ∨
      (manifest.state slot.file).key? slot.shelf = some key) :
    ((cache.recordKeys records manifest).state slot.file).key? slot.shelf = some key := by
  induction records generalizing manifest with
  | nil => exact h.resolve_left fun ⟨_, hmem⟩ => List.not_mem_nil hmem
  | cons entry rest ih =>
    obtain ⟨other, found⟩ := entry
    refine ih (fun record hrecord => hkeys record (List.mem_cons_of_mem _ hrecord))
      (manifest.recordKey other.shelf other.file (found.key cache.config)) ?_
    rw [Manifest.state_recordKey]
    by_cases hslot : slot = other
    · subst hslot
      rw [if_pos ⟨rfl, rfl⟩, hkeys found List.mem_cons_self]
      exact .inr rfl
    · have hapart : ¬ (slot.file = other.file ∧ slot.shelf = other.shelf) := by
        rintro ⟨hfile, hshelf⟩
        cases slot
        cases other
        exact hslot (Slot.mk.injEq .. ▸ ⟨hshelf, hfile⟩)
      rw [if_neg hapart]
      refine h.imp_left fun ⟨record, hmem⟩ => ⟨record, ?_⟩
      exact (List.mem_cons.mp hmem).resolve_left fun heq => hslot (congrArg Prod.fst heq)

/-- A flush records the key of a pending record. -/
lemma key?_flushedManifest_of_mem {slot : Slot} {record : Record}
    (h : (slot, record) ∈ cache.pendingRecords) :
    (cache.flushedManifest.state slot.file).key? slot.shelf = some (record.key cache.config) := by
  rw [state_flushedManifest]
  refine cache.key?_recordKeys (fun found hfound => ?_) cache.manifest (.inl ⟨record, h⟩)
  have hsame := (mem_pendingRecords.mp hfound).2.symm.trans (mem_pendingRecords.mp h).2
  rw [Option.some.inj hsame]

/-- A flush leaves the key of a slot that is not pending. -/
lemma key?_flushedManifest_of_not_mem {slot : Slot} {key : String} (h : slot ∉ cache.pending)
    (hkey : (cache.manifest.state slot.file).key? slot.shelf = some key) :
    (cache.flushedManifest.state slot.file).key? slot.shelf = some key := by
  rw [state_flushedManifest]
  exact cache.key?_recordKeys (fun found hfound => absurd (mem_pendingRecords.mp hfound).1 h)
    cache.manifest (.inr hkey)

end Cache

end Recompile
