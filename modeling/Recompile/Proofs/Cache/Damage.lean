import Recompile.Proofs.Cache.Survival

/-!
# Damaged artifacts

A record in memory comes from the archive or from a computation in this process.  So a part of a
record that was not asked for yet comes from the archive, and the archive still has it, as long as
what is stored can be read back (`Cache.Fetched`).  Whatever bytes have taken the place of the
artifacts, the first lookup of a part gives what is in a well-formed artifact about its module, text
and generation (`Cache.HasArtifact`), or it computes.

What is computed is kept and written under the key that the manifest names then, so damage is gone
with the next flush that does not fail (`World.damaged_artifacts_heal`).
-/

namespace Recompile

/-- Some artifacts below a root were replaced by other contents, or taken away. -/
def Disk.Damaged (root : Location) (before after : Disk) : Prop :=
  ∀ location, after.nodes[location]? = before.nodes[location]? ∨
    ∃ (config : Digest) (shelf : Shelf) (name : String) (content : Bytes),
      location = root ++ [config.hex, shelf.directory, name] ∧
      before.nodes[location]? = some (.file content) ∧
      (after.nodes[location]? = none ∨ ∃ other, after.nodes[location]? = some (.file other))

namespace Disk.Damaged

variable {root : Location} {before after : Disk}

/-- Damage adds no entry. -/
lemma spelled (h : before.Damaged root after) (hspelled : before.Spelled) : after.Spelled := by
  intro location node name hnode hname
  rcases h location with hsame | ⟨config, shelf, found, content, -, hbefore, -⟩
  · exact hspelled location node name (hsame.symm.trans hnode) hname
  · exact hspelled location _ name hbefore hname

/-- Damage leaves the manifests. -/
lemma content?_manifest (h : before.Damaged root after) (config : Digest) :
    after.content? (root ++ [config.hex, "manifest.json"]) =
      before.content? (root ++ [config.hex, "manifest.json"]) := by
  rcases h (root ++ [config.hex, "manifest.json"]) with
    hsame | ⟨other, shelf, name, content, hplace, -⟩
  · unfold content? node?
    rw [hsame]
  · exact absurd hplace.symm Cache.artifact_ne_manifest

/-- Damage keeps every property of the manifests. -/
lemma saves {property : ManifestProperty} (h : before.Damaged root after)
    (hsaves : before.Saves property root) : after.Saves property root := by
  intro config content manifest hcontent hmanifest
  rw [h.content?_manifest] at hcontent
  exact hsaves config content manifest hcontent hmanifest

end Disk.Damaged

/-- The disk without the files in a directory. -/
def Disk.cleared (disk : Disk) (directory : Location) : Disk :=
  ⟨disk.nodes.filter fun location node => location.dropLast ≠ directory ∨ node = .directory⟩

/-- The files that are left were there before, in other directories. -/
lemma Disk.content?_cleared {disk : Disk} {directory location : Location} {content : Bytes}
    (h : (disk.cleared directory).content? location = some content) :
    disk.nodes[location]? = some (.file content) ∧ location.dropLast ≠ directory := by
  unfold content? node? cleared at h
  split_ifs at h
  split at h
  · rename_i hnode
    obtain rfl := Option.some.inj h
    rw [Std.ExtTreeMap.getElem?_filter', Option.filter_eq_some_iff] at hnode
    exact ⟨hnode.1, (of_decide_eq_true hnode.2).resolve_right Node.noConfusion⟩
  · cases h

/-- A disk without the artifacts on a shelf is damaged. -/
lemma Disk.damaged_cleared (disk : Disk) (root : Location) (config : Digest) (shelf : Shelf) :
    disk.Damaged root (disk.cleared (root ++ [config.hex, shelf.directory])) := by
  intro location
  unfold cleared
  simp only [Std.ExtTreeMap.getElem?_filter']
  cases hnode : disk.nodes[location]? with
  | none => exact .inl rfl
  | some node =>
    cases node with
    | directory => exact .inl (by simp)
    | file content =>
      by_cases hplace : location.dropLast = root ++ [config.hex, shelf.directory]
      · have hne : location ≠ [] := by
          rintro rfl
          simp at hplace
        have hlast := List.dropLast_append_getLast hne
        rw [hplace, List.append_assoc] at hlast
        exact .inr ⟨config, shelf, _, content, hlast.symm, rfl, .inl (by simp [hplace])⟩
      · exact .inl (by simp [hplace])

/-- The shelf of a part keeps it. -/
lemma Part.exists_onShelf? {record : Record} (part : Part) {value : part.Value}
    (h : part.get? record = some value) :
    ∃ found, record.onShelf? part.shelf = some found ∧ part.get? found = some value := by
  cases part with
  | output =>
    have hsome : record.output.isSome = true := Option.isSome_iff_exists.mpr ⟨value, h⟩
    exact ⟨_, if_pos hsome, h⟩
  | findings pass =>
    obtain ⟨known, hknown, -⟩ := Option.bind_eq_some_iff.mp h
    have hsome : record.findings.isSome = true := Option.isSome_iff_exists.mpr ⟨known, hknown⟩
    exact ⟨_, if_pos hsome, h⟩

namespace Cache

variable {cache : Cache} {disk : Disk}

/-! ### Artifacts -/

/-- The manifest names the artifact of a slot with a text and a generation, the file is a
well-formed artifact of the tool, and its payload is a record about this module, text and
generation. -/
def HasArtifact (cache : Cache) (disk : Disk) (slot : Slot) (content : Digest)
    (generation : UInt64) (record : Record) : Prop :=
  ∃ key raw payload, key = artifactKey slot.file content cache.config generation ∧
    (cache.manifest.state slot.file).key? slot.shelf = some key ∧
    disk.read (cache.archive.pathOf slot.shelf.directory key) = .ok raw ∧
    Artifact.WellFormed cache.tool raw payload ∧ Record.ofBytes payload = .ok record ∧
    record.file = slot.file ∧ record.content = content ∧ record.generation = generation

/-- What is stored is what the shelf keeps of such a record. -/
lemma hasArtifact_of_stored {slot : Slot} {content : Digest} {generation : UInt64}
    {record : Record} (h : cache.stored? disk slot content generation = some record) :
    ∃ whole, cache.HasArtifact disk slot content generation whole ∧
      whole.onShelf? slot.shelf = some record := by
  obtain ⟨hkey, payload, whole, hpayload, hwhole, hanswers, hshelf⟩ := stored?_iff.mp h
  obtain ⟨raw, hraw, hartifact⟩ := Archive.read_eq_ok.mp hpayload
  exact ⟨whole, ⟨_, raw, payload, rfl, hkey, hraw, Artifact.payload_eq_ok.mp hartifact, hwhole,
    Record.answers_iff.mp hanswers⟩, hshelf⟩

/-- The artifact is on the shelf. -/
lemma HasArtifact.exists_content? {slot : Slot} {content : Digest} {generation : UInt64}
    {record : Record} (h : cache.HasArtifact disk slot content generation record) :
    ∃ name raw, disk.content? (cache.root.place ++
      [cache.config.hex, slot.shelf.directory, name]) = some raw := by
  obtain ⟨key, raw, -, rfl, -, hread, -⟩ := h
  have hraw := Disk.content?_of_read hread
  rw [Archive.place_pathOf _ _ (isName_artifact _ _ _ _), locate_archive] at hraw
  exact ⟨_, raw, hraw⟩

/-! ### Parts that come from the archive -/

/-- The parts of the records in memory that were not asked for are stored. -/
def Fetched (cache : Cache) (disk : Disk) (asked : Part → ModuleId → Prop) : Prop :=
  ∀ (slot : Slot) (record : Record), cache.memory[slot]? = some record →
    ∀ (part : Part) (value : part.Value), part.shelf = slot.shelf → ¬ asked part slot.file →
      part.get? record = some value →
      ∃ found, cache.stored? disk slot record.content record.generation = some found ∧
        part.get? found = some value

namespace Fetched

variable {asked : Part → ModuleId → Prop}

/-- Where nothing is in memory nothing has to be stored. -/
lemma of_memory_empty (h : cache.memory = ∅) (disk : Disk) : cache.Fetched disk asked := by
  intro slot record hrecord
  rw [h, Std.ExtTreeMap.getElem?_empty] at hrecord
  cases hrecord

/-- Hearing of texts changes neither the records nor what is stored. -/
lemma hears {count : Nat} {after : Cache} (h : cache.Fetched disk asked)
    (hhears : Hears count cache after) : after.Fetched disk asked := by
  intro slot record hrecord part value hpart hnot hvalue
  rw [hhears.memory] at hrecord
  obtain ⟨found, hfound, hvalue'⟩ := h slot record hrecord part value hpart hnot hvalue
  refine ⟨found, stored?_mono hhears.root hhears.config hhears.tool (fun hkey => ?_)
    (fun _ _ _ => id) hfound, hvalue'⟩
  rw [hhears.key]
  exact hkey

/-- Edges and marks do not matter. -/
lemma addImport (h : cache.Fetched disk asked) (edge : Edge) :
    (cache.addImport edge).Fetched disk asked := by
  unfold Cache.addImport
  split_ifs
  · exact h
  · have hframe : ({ cache with graph := cache.graph.insert edge, dirty := true } : Cache).stored? =
        cache.stored? := stored?_frame rfl rfl rfl rfl
    intro slot record hrecord part value hpart hnot hvalue
    rw [hframe]
    exact h slot record hrecord part value hpart hnot hvalue

/-- Records may be added to the memory, if their parts are stored or were asked for. -/
lemma replace {after : Cache} (h : cache.Fetched disk asked) (hroot : after.root = cache.root)
    (hconfig : after.config = cache.config) (htool : after.tool = cache.tool)
    (hmanifest : after.manifest = cache.manifest) {slot : Slot} {record : Record}
    (hmemory : after.memory = cache.memory.insert slot record)
    (hparts : ∀ (part : Part) (value : part.Value), part.shelf = slot.shelf →
      ¬ asked part slot.file → part.get? record = some value →
      ∃ found, cache.stored? disk slot record.content record.generation = some found ∧
        part.get? found = some value) : after.Fetched disk asked := by
  intro other found hfound
  rw [stored?_frame hroot hconfig htool hmanifest]
  rw [hmemory, Std.ExtTreeMap.getElem?_insert] at hfound
  split_ifs at hfound with hslot
  · obtain rfl := Std.LawfulEqOrd.eq_of_compare hslot
    obtain rfl := Option.some.inj hfound
    exact hparts
  · exact h other found hfound

/-- What a lookup takes into memory is stored. -/
lemma lookup (h : cache.Fetched disk asked) (part : Part) (snapshot : Snapshot) :
    (cache.lookup disk part snapshot).2.Fetched disk asked := by
  have hobserve := h.hears (cache.hears_observe disk snapshot.id)
  unfold Cache.lookup
  simp only
  generalize cache.observe disk snapshot.id = observed at hobserve
  rcases observed.fetch_cases disk (part.slot snapshot.id) snapshot.fingerprint with
    ⟨record, -, heq⟩ | ⟨record, hstored, heq⟩ | ⟨-, heq⟩
  · rw [heq]
    exact hobserve
  · rw [heq]
    obtain ⟨-, payload, whole, -, -, hanswers, hshelf⟩ := stored?_iff.mp hstored
    obtain ⟨-, hcontent, hgeneration⟩ := Record.answers_iff.mp hanswers
    obtain ⟨-, hcontent', hgeneration'⟩ := Record.stamp_onShelf? hshelf
    refine hobserve.replace rfl rfl rfl rfl rfl fun other value _ _ hvalue => ⟨record, ?_, hvalue⟩
    rw [hcontent', hgeneration', hcontent, hgeneration]
    exact hstored
  · rw [heq]
    exact hobserve

/-- Keeping a part that was asked for leaves the others as they were. -/
lemma keep (h : cache.Fetched disk asked) {part : Part} {snapshot : Snapshot}
    (hasked : asked part snapshot.id) (value : part.Value) :
    (cache.keep part snapshot value).Fetched disk asked := by
  obtain ⟨-, hcontent, hgeneration, hbase⟩ := cache.base_spec part snapshot
  obtain ⟨-, hcontent', hgeneration'⟩ := part.stamp_set value (cache.base part snapshot)
  refine h.replace rfl rfl rfl rfl rfl fun other kept hpart hnot hkept => ?_
  change ∃ found, cache.stored? disk (part.slot snapshot.id)
    (part.set value (cache.base part snapshot)).content
    (part.set value (cache.base part snapshot)).generation = some found ∧ _
  have hother : other ≠ part := by
    rintro rfl
    exact hnot hasked
  have hkept : other.get? (part.set value (cache.base part snapshot)) = some kept := hkept
  rw [Part.get?_set_of_ne hother] at hkept
  rw [hcontent', hgeneration']
  rcases hbase with hblank | hmemory
  · rw [hblank] at hkept
    cases other <;> cases hkept
  · exact h _ _ hmemory other kept hpart hnot hkept

/-- Collecting leaves what is stored. -/
lemma collect (h : cache.Fetched disk asked) (hspelled : disk.Spelled) :
    cache.Fetched (cache.collect disk).2 asked := by
  intro slot record hrecord part value hpart hnot hvalue
  obtain ⟨found, hfound, hvalue'⟩ := h slot record hrecord part value hpart hnot hvalue
  exact ⟨found, stored?_collect hspelled hfound, hvalue'⟩

/-- A flush leaves what is stored, or stores what is in memory, if keys are unique and the records
can be read back. -/
theorem done {log : List Served} (h : cache.Fetched disk asked) (hrecalls : cache.Recalls log)
    (hunique : KeysUnique log) (hfits : ∀ (slot : Slot) (record : Record),
      cache.memory[slot]? = some record → record.Fits cache.tool) :
    (cache.done disk).2.1.Fetched (cache.done disk).2.2 asked := by
  obtain ⟨hroot, hconfig, htool, hmemory, -⟩ := cache.done_frame disk
  intro slot record hrecord part value hpart hnot hvalue
  rw [hmemory] at hrecord
  obtain ⟨found, hfound, hvalue'⟩ := h slot record hrecord part value hpart hnot hvalue
  obtain ⟨hkey, payload, whole, hpayload, hwhole, hanswers, hshelf⟩ := stored?_iff.mp hfound
  obtain ⟨raw, hraw, hartifact⟩ := Archive.read_eq_ok.mp hpayload
  have hfile := (hrecalls slot record hrecord).1
  have hrecordKey : record.key cache.config =
      artifactKey slot.file record.content cache.config record.generation := by
    unfold Record.key
    rw [hfile]
  have hkept : ((cache.done disk).2.1.manifest.state slot.file).key? slot.shelf =
      some (artifactKey slot.file record.content cache.config record.generation) := by
    rcases cache.manifest_done disk with heq | ⟨heq, -⟩
    · rw [heq]
      exact hkey
    · rw [heq]
      by_cases hpending : slot ∈ cache.pending
      · rw [key?_flushedManifest_of_mem (mem_pendingRecords.mpr ⟨hpending, hrecord⟩), hrecordKey]
      · exact key?_flushedManifest_of_not_mem hpending hkey
  have harchive : (cache.done disk).2.1.archive = cache.archive := by
    unfold archive directory
    rw [hroot, hconfig, htool]
  have hplace := Archive.place_pathOf cache.archive slot.shelf (record.isName_key cache.config)
  rw [← hrecordKey] at hraw
  have hread := cache.read_flush cache.flushWrites.length
    (hplace.trans (cache.locate_archive slot.shelf (record.key cache.config))) hraw
  rw [List.take_length, ← disk_done] at hread
  rcases hread with hold | ⟨other, pending, hpending, hsame, hnew⟩
  · rw [hrecordKey] at hold
    refine ⟨found, stored?_iff.mpr ?_, hvalue'⟩
    rw [hconfig, harchive]
    exact ⟨hkept, payload, whole, Archive.read_eq_ok.mpr ⟨raw, hold, hartifact⟩, hwhole, hanswers,
      hshelf⟩
  · -- What was written to the place of the record is the record itself.
    obtain ⟨-, hpending⟩ := mem_pendingRecords.mp hpending
    rw [hplace] at hsame
    obtain rfl := hrecalls.eq_slot hunique hrecord hpending hsame
    obtain rfl := Option.some.inj (hrecord.symm.trans hpending)
    have hfits : record.Fits cache.archive.tool := hfits slot record hrecord
    obtain ⟨hpayload', hwhole'⟩ := hfits.read hnew
    rw [hrecordKey] at hpayload'
    obtain ⟨kept, hkeptShelf, hkeptValue⟩ := part.exists_onShelf? hvalue
    rw [hpart] at hkeptShelf
    refine ⟨kept, stored?_iff.mpr ?_, hkeptValue⟩
    rw [hconfig, harchive]
    exact ⟨hkept, _, record, hpayload', hwhole', Record.answers_iff.mpr ⟨hfile, rfl, rfl⟩,
      hkeptShelf⟩

end Fetched

/-- A part that was not asked for is found in an artifact about the generation that the lookup sees,
or it is computed once. -/
theorem Fetched.answer_cases {asked : Part → ModuleId → Prop} (h : cache.Fetched disk asked)
    {part : Part} {snapshot : Snapshot} (hnot : ¬ asked part snapshot.id) {σ : Type}
    (compute : σ → part.Value × σ) (state : σ) :
    (∃ record, (cache.observe disk snapshot.id).HasArtifact disk (part.slot snapshot.id)
        snapshot.fingerprint ((cache.observe disk snapshot.id).generation snapshot.id) record ∧
        part.get? record = some (cache.answer disk part snapshot compute state).1 ∧
        (cache.answer disk part snapshot compute state).2.2 = state) ∨
      (cache.answer disk part snapshot compute state).1 = (compute state).1 ∧
        (cache.answer disk part snapshot compute state).2.2 = (compute state).2 := by
  rcases cache.answer_cases disk part snapshot compute state with ⟨value, hfound, heq⟩ | ⟨-, heq⟩
  · obtain ⟨record, hmemory, -, hcontent, hgeneration, hvalue⟩ := record_of_lookup hfound
    obtain ⟨stored, hstored, hvalue'⟩ :=
      h.lookup part snapshot (part.slot snapshot.id) record hmemory part value rfl hnot hvalue
    obtain ⟨memory, hframe⟩ := cache.lookup_frame disk part snapshot
    rw [hcontent, hgeneration, hframe] at hstored
    obtain ⟨whole, hartifact, hshelf⟩ := hasArtifact_of_stored hstored
    rw [heq]
    exact .inl ⟨whole, hartifact, Record.get?_onShelf? hshelf hvalue', rfl⟩
  · rw [heq]
    exact .inr ⟨rfl, rfl⟩

/-- Recording an import leaves a slot filled, if every connected module is seen. -/
lemma Filled.addImport {part : Part} {snapshot : Snapshot} {value : part.Value}
    (h : cache.Filled part snapshot value) {edge : Edge}
    (hseen : (cache.addImport edge).Seen snapshot.id) :
    (cache.addImport edge).Filled part snapshot value := by
  refine ⟨?_, ?_, hseen⟩ <;> unfold Cache.addImport <;> split_ifs
  · exact h.current
  · exact h.current
  · exact h.live
  · exact h.live

/-- Handing in a text that is no news leaves a slot filled. -/
lemma Filled.submit {part : Part} {snapshot : Snapshot} {value : part.Value}
    (h : cache.Filled part snapshot value) (hstep : cache.InStep) {id : ModuleId} {text : String}
    (hnews : id ≠ snapshot.id → cache.NoNews snapshot.id id text)
    (hown : id = snapshot.id → text = snapshot.text) :
    (cache.submit id text).2.Filled part snapshot value where
  current := by
    rw [snapshots_submit]
    by_cases hid : id = snapshot.id
    · refine SnapshotTable.get?_submit_same (fun known hknown => ?_) h.current
      rw [hid, h.current] at hknown
      rw [hown hid, Option.some.inj hknown]
    · rw [SnapshotTable.get?_submit_of_ne _ (Ne.symm hid)]
      exact h.current
  live := by
    have hgeneration : (cache.submit id text).2.generation snapshot.id =
        cache.generation snapshot.id := by
      rcases cache.generation_submit id snapshot.id text with
        ⟨-, hdiffers, hconnected⟩ | ⟨hkept, -⟩
      · by_cases hid : id = snapshot.id
        · obtain ⟨known, hknown, hne⟩ := hdiffers
          rw [hid] at hknown
          rw [hown hid] at hne
          exact absurd (hstep.recorded _ _ known h.current hknown) hne
        · exact absurd hdiffers (hnews hid hconnected.symm)
      · exact hkept
    rw [hgeneration, live?_congr (cache.hears_submit id text).memory]
    exact h.live
  seen other hconnected hunobserved := by
    rw [(cache.hears_submit id text).graph] at hconnected
    exact h.seen other hconnected (mem_unobserved_submit.mp hunobserved).2

end Cache

namespace World

variable {world : World} {part : Part} {snapshot : Snapshot} {value : part.Value}

/-! ### Before a part is asked for -/

/-- Keys are unique, and the records in memory can be read back when they are stored. -/
structure Storable (world : World) : Prop where
  /-- The keys. -/
  unique : KeysUnique world.log
  /-- The records. -/
  fits : ∀ (slot : Slot) (record : Record), world.cache.memory[slot]? = some record →
    record.Fits world.cache.tool

/-- A call of a process that is alone; what it stores under its configuration is storable. -/
def IsOwn (world : World) : Call → Prop
  | .done => world.Storable
  | .reconfigure config => config = world.cache.config → world.Storable
  | .reopen _ _ _ | .edit _ => False
  | _ => True

/-- Several such calls, one after the other. -/
def Owns : World → List Call → Prop
  | _, [] => True
  | world, call :: rest => world.IsOwn call ∧ (world.take call).Owns rest

/-- A part of a module was asked for in one of several calls. -/
def AskedIn (calls : List Call) (part : Part) (file : ModuleId) : Prop :=
  ∃ snapshot value, Call.ask part snapshot value ∈ calls ∧ snapshot.id = file

/-- Calls of the process may happen. -/
lemma IsOwn.admits {call : Call} (h : world.IsOwn call) : world.Admits call := by
  cases call with
  | edit disk => exact h.elim
  | _ => trivial

/-- So may several. -/
lemma Owns.admitsAll {calls : List Call} (h : world.Owns calls) : world.AdmitsAll calls := by
  induction calls generalizing world with
  | nil => trivial
  | cons call rest ih => exact ⟨h.1.admits, ih h.2⟩

/-- Parts that were not asked for go on coming from the archive. -/
theorem fetched_take {asked : Part → ModuleId → Prop} (hspelled : world.disk.Spelled)
    (hrecalls : world.cache.Recalls world.log) (h : world.cache.Fetched world.disk asked)
    {call : Call} (hcall : world.IsOwn call)
    (hasked : ∀ part snapshot value, call = .ask part snapshot value → asked part snapshot.id) :
    (world.take call).cache.Fetched (world.take call).disk asked := by
  cases call with
  | submit path text =>
    simp only [World.take]
    exact h.hears (world.cache.hears_submit _ text)
  | addImport edge =>
    simp only [World.take]
    exact h.addImport edge
  | ask part snapshot value =>
    exact cache_ask_induction (motive := fun cache => cache.Fetched world.disk asked)
      (h.lookup part snapshot) fun hlookup => hlookup.keep (hasked part snapshot value rfl) value
  | done =>
    simp only [World.take, put]
    exact h.done hrecalls hcall.unique hcall.fits
  | collect =>
    simp only [World.take]
    exact h.collect hspelled
  | clean =>
    simp only [World.take, put]
    exact .of_memory_empty rfl _
  | reconfigure config =>
    simp only [World.take, put]
    by_cases hsame : config = world.cache.config
    · obtain ⟨hunique, hfits⟩ := hcall hsame
      rw [hsame, Cache.reconfigure_self]
      exact h.done hrecalls hunique hfits
    · refine .of_memory_empty ?_ _
      rw [Cache.reconfigure_eq _ _ hsame]
      dsimp only
      rw [(Cache.hears_recordSnapshots _).memory, (Cache.attach_frame _ _).2.2.2.1]
      rfl
  | reopen config tool entries => exact hcall.elim
  | edit disk => exact hcall.elim

/-- So they do over several calls. -/
lemma fetched_run {asked : Part → ModuleId → Prop} (hspelled : world.disk.Spelled)
    (hrecalls : world.cache.Recalls world.log) (h : world.cache.Fetched world.disk asked)
    {calls : List Call} (hcalls : world.Owns calls)
    (hasked : ∀ part snapshot value, Call.ask part snapshot value ∈ calls →
      asked part snapshot.id) :
    (world.run calls).cache.Fetched (world.run calls).disk asked := by
  induction calls generalizing world with
  | nil => exact h
  | cons call rest ih =>
    refine ih (spelled_take hspelled hcalls.1.admits) (recalls_take hrecalls call)
      (fetched_take hspelled hrecalls h hcalls.1 fun part snapshot value heq => ?_) hcalls.2
      fun part snapshot value hmem => hasked part snapshot value (List.mem_cons_of_mem _ hmem)
    exact hasked part snapshot value (heq ▸ List.mem_cons_self)

/-! ### Until results are stored -/

/-- A call that leaves an answer as it is: a text is handed in that is no news, an import is
recorded and every connected module is seen, a part is asked for with the current snapshot, results
are stored or collected, or others leave the root alone. -/
def IsCalm (world : World) (snapshot : Snapshot) : Call → Prop
  | .submit path text => world.IsNoNews snapshot (.submit path text)
  | .addImport edge => (world.cache.addImport edge).Seen snapshot.id
  | call => world.IsSteady call ∧ world.Admits call

/-- Several such calls, one after the other. -/
def Calm (snapshot : Snapshot) : World → List Call → Prop
  | _, [] => True
  | world, call :: rest => world.IsCalm snapshot call ∧ (world.take call).Calm snapshot rest

/-- Such calls may happen. -/
lemma IsCalm.admits {call : Call} (h : world.IsCalm snapshot call) : world.Admits call := by
  cases call with
  | submit path text => trivial
  | reopen config tool entries => exact h.2
  | addImport edge => trivial
  | ask part snapshot value => exact h.2
  | done => exact h.2
  | collect => exact h.2
  | clean => exact h.2
  | reconfigure config => exact h.2
  | edit disk => exact h.2

/-- They leave a slot filled. -/
lemma filled_take (hstep : world.cache.InStep) (h : world.cache.Filled part snapshot value)
    {call : Call} (hcall : world.IsCalm snapshot call) :
    (world.take call).cache.Filled part snapshot value := by
  cases call with
  | submit path text =>
    simp only [World.take]
    unfold IsCalm IsNoNews at hcall
    simp only at hcall
    refine h.submit hstep (fun hid => ?_) fun hid => ?_
    · rwa [if_neg hid] at hcall
    · rwa [if_pos hid] at hcall
  | ask asked current computed => exact (filled_ask hstep hcall.1 computed h).1
  | done =>
    simp only [World.take, put]
    exact h.done world.disk
  | collect => simpa only [World.take] using h
  | edit disk => simpa only [World.take] using h
  | addImport edge =>
    simp only [World.take]
    exact h.addImport hcall
  | reopen config tool entries => exact hcall.1.elim
  | clean => exact hcall.1.elim
  | reconfigure config => exact hcall.1.elim

/-- Several such calls may happen, and they leave a slot filled. -/
lemma filled_run (hstep : world.InStep) (h : world.cache.Filled part snapshot value)
    {calls : List Call} (hcalls : world.Calm snapshot calls) :
    world.AdmitsAll calls ∧ (world.run calls).cache.Filled part snapshot value := by
  induction calls generalizing world with
  | nil => exact ⟨trivial, h⟩
  | cons call rest ih =>
    have hadmits := hcalls.1.admits
    obtain ⟨hrest, hfilled⟩ :=
      ih (hstep.take hadmits.allows) (filled_take hstep.cache h hcalls.1) hcalls.2
    exact ⟨⟨hadmits, hrest⟩, hfilled⟩

/-- After the next flush, if it does not fail, a process that opens the namespace and hears of the
same text gives the value without computing it: whatever texts it was handed and whatever it was
asked for before, and whatever others did elsewhere, if every connected module was heard of with its
recorded text, or was not heard of and cannot be read. -/
def Survives (world : World) (part : Part) (snapshot : Snapshot) (value : part.Value) : Prop :=
  (world.cache.done world.disk).1.isFailed = false →
    ∀ (disk : Disk) (entries : List ModuleId) (opened : World) (calls : List Call)
      (again : Snapshot) (computed : part.Value),
      (world.take .done).disk.Leaves world.cache.root disk →
      opened = ((world.take .done).take (.edit disk)).take
        (.reopen world.cache.config world.cache.tool entries) →
      opened.Resumes snapshot calls → again.id = snapshot.id → again.text = snapshot.text →
      (opened.run calls).cache.ReadsNoNews (opened.run calls).disk snapshot.id again.id →
      ((opened.run calls).given part again computed).1 = value ∧
        ((opened.run calls).given part again computed).2.2 = false

/-- What fills a slot survives, if the records of the slot can be read back. -/
lemma Tended.survives (h : world.Tended) (hunique : KeysUnique world.log)
    (hfilled : world.cache.Filled part snapshot value)
    (hfits : ∀ record, world.cache.memory[part.slot snapshot.id]? = some record →
      record.Fits world.cache.tool) : world.Survives part snapshot value := by
  intro hdone disk entries opened calls again computed hleaves hopened hcalls hid htext hnews
  obtain ⟨record, hlive, hvalue⟩ := hfilled.live
  exact h.given_reopened hunique hfilled.current hlive hvalue
    (hfits record (Cache.live?_eq_some.mp hlive).1) hdone hleaves hopened hcalls hid htext hnews
    computed

/-! ### Damage -/

/-- A process that opens a damaged root is tended. -/
lemma Reachable.tended_damaged {root : Path} (h : Reachable root world)
    (hspelled : world.disk.Spelled) {damaged : Disk}
    (hdamaged : world.disk.Damaged world.cache.root.place damaged) (config : Digest)
    (tool : String) (entries : List ModuleId) :
    ((world.take (.edit damaged)).take (.reopen config tool entries)).Tended := by
  have hstep := h.inStep
  refine tended_reopen ?_ ⟨?_, ?_⟩ config tool entries
  · simp only [World.take]
    exact hdamaged.spelled hspelled
  · simp only [World.take]
    exact hstep.cache
  · simp only [World.take]
    exact hdamaged.saves hstep.saved

/-- A process that opens a root on another disk adds no content and starts with an empty memory. -/
lemma reopen_frame (world : World) (disk : Disk) (config : Digest) (tool : String)
    (entries : List ModuleId) {opened : World}
    (h : opened = (world.take (.edit disk)).take (.reopen config tool entries)) :
    opened.disk.Within disk ∧ opened.cache.root = world.cache.root ∧
      opened.cache.config = config ∧ opened.cache.memory = ∅ := by
  rw [h]
  simp only [World.take, put]
  unfold Cache.openAt
  obtain ⟨hroot, hconfig, -, hmemory, -⟩ :=
    (Cache.fresh world.cache.root config tool entries).attach_frame disk
  exact ⟨Cache.attach_within _ _, hroot, hconfig, hmemory⟩

/-- Whatever replaced artifacts below a root, in a process that opens it the first lookup of a part
of a module gives what is computed, or what a well-formed artifact has that the manifest names and
that is about the module, its text and its generation; lookups leave the disk alone.  If there is no
such artifact, the part is computed once, and the result survives the next flush. -/
theorem damaged_artifacts_heal {root : Path} (h : Reachable root world)
    (hspelled : world.disk.Spelled) {damaged : Disk}
    (hdamaged : world.disk.Damaged world.cache.root.place damaged) (config : Digest)
    (tool : String) (entries : List ModuleId) {opened asking : World}
    (hopened : opened = (world.take (.edit damaged)).take (.reopen config tool entries))
    {calls : List Call} (hcalls : opened.Owns calls) (hasking : asking = opened.run calls)
    (hfirst : ¬ AskedIn calls part snapshot.id) {seen : Cache}
    (hseen : seen = asking.cache.observe asking.disk snapshot.id) :
    (∀ {σ : Type} (compute : σ → part.Value × σ) (state : σ),
        (∃ record, seen.HasArtifact asking.disk (part.slot snapshot.id) snapshot.fingerprint
            (seen.generation snapshot.id) record ∧
            part.get? record =
              some (asking.cache.answer asking.disk part snapshot compute state).1 ∧
            (asking.cache.answer asking.disk part snapshot compute state).2.2 = state) ∨
          (asking.cache.answer asking.disk part snapshot compute state).1 = (compute state).1 ∧
            (asking.cache.answer asking.disk part snapshot compute state).2.2 =
              (compute state).2) ∧
      (∀ value, (asking.take (.ask part snapshot value)).disk = asking.disk) ∧
      ((¬ ∃ record, seen.HasArtifact asking.disk (part.slot snapshot.id) snapshot.fingerprint
          (seen.generation snapshot.id) record) →
        (∀ {σ : Type} (compute : σ → part.Value × σ) (state : σ),
          (asking.cache.answer asking.disk part snapshot compute state).1 = (compute state).1 ∧
            (asking.cache.answer asking.disk part snapshot compute state).2.2 =
              (compute state).2) ∧
          ∀ (value : part.Value) (later : List Call) (last : World),
            asking.cache.snapshots.get? snapshot.id = some snapshot →
            (asking.take (.ask part snapshot value)).Calm snapshot later →
            last = (asking.take (.ask part snapshot value)).run later → KeysUnique last.log →
            (∀ record, last.cache.memory[part.slot snapshot.id]? = some record →
              record.Fits last.cache.tool) → last.Survives part snapshot value) := by
  have htended : opened.Tended := by
    rw [hopened]
    exact h.tended_damaged hspelled hdamaged config tool entries
  have hfetched : asking.cache.Fetched asking.disk (AskedIn calls) := by
    obtain ⟨-, -, -, hempty⟩ := reopen_frame world damaged config tool entries hopened
    rw [hasking]
    exact fetched_run htended.spelled htended.recalls (.of_memory_empty hempty _) hcalls
      fun part snapshot value hmem => ⟨snapshot, value, hmem, rfl⟩
  subst hseen
  refine ⟨hfetched.answer_cases hfirst, fun value => rfl, fun hnone => ?_⟩
  have hcomputes : ∀ {σ : Type} (compute : σ → part.Value × σ) (state : σ),
      (asking.cache.answer asking.disk part snapshot compute state).1 = (compute state).1 ∧
        (asking.cache.answer asking.disk part snapshot compute state).2.2 = (compute state).2 :=
    fun compute state => (hfetched.answer_cases hfirst compute state).resolve_left
      fun ⟨record, hartifact, _⟩ => hnone ⟨record, hartifact⟩
  refine ⟨hcomputes, fun value later last hcurrent hlater hlast hunique hfits => ?_⟩
  -- Keys were unique all the time, and so the world was tended all the time.
  obtain ⟨rest, hrest⟩ := (asking.take (.ask part snapshot value)).log_prefix_run later
  obtain ⟨served, hserved⟩ := asking.log_prefix_take (.ask part snapshot value)
  rw [hlast, hrest, hserved] at hunique
  have htended : asking.Tended := by
    have hbefore := hunique.of_append.of_append
    rw [hasking] at hbefore ⊢
    exact htended.run hbefore hcalls.admitsAll
  have hadmits : asking.Admits (.ask part snapshot value) := trivial
  have hkept : (asking.take (.ask part snapshot value)).Tended :=
    htended.take hunique.of_append.of_append hadmits
  have hfilled : (asking.take (.ask part snapshot value)).cache.Filled part snapshot value := by
    have hgiven := filled_given htended.step.cache hcurrent value
    have hvalue : (asking.given part snapshot value).1 = value :=
      (hcomputes (fun _ => (value, true)) false).1
    rwa [hvalue] at hgiven
  obtain ⟨hall, hlasting⟩ := filled_run hkept.step hfilled hlater
  rw [← hserved, ← hrest] at hunique
  rw [hlast] at hfits ⊢
  exact (hkept.run hunique hall).survives hunique hlasting hfits

/-- The disk on which the output of a module was stored, without its artifact. -/
def emptied : Disk :=
  (answered.take .done).disk.cleared
    ((Path.mk "cache").place ++ [Digest.zero.hex, Shelf.code.directory])

/-- The output is computed again. -/
theorem damaged_artifacts_heal_answered :
    ∃ asking : World,
      asking = (((answered.take .done).take (.edit emptied)).take
        (.reopen .zero "" [])).run [.submit "a" ""] ∧
      (asking.given .output ⟨⟨"a"⟩, "", 1⟩ (Output.ofCode "b")).1 = Output.ofCode "b" ∧
      (asking.given .output ⟨⟨"a"⟩, "", 1⟩ (Output.ofCode "b")).2.2 = true := by
  have hdone : Alone ⟨"cache"⟩ .empty (answered.take .done) := alone_answered.take trivial
  have hspelled : (answered.take .done).disk.Spelled := hdone.spelled .empty
  have hdamaged : (answered.take .done).disk.Damaged (answered.take .done).cache.root.place
      emptied := by
    rw [hdone.root_eq]
    exact Disk.damaged_cleared _ _ _ _
  obtain ⟨opened, hopened⟩ : ∃ opened, opened = ((answered.take .done).take (.edit emptied)).take
    (.reopen .zero "" []) := ⟨_, rfl⟩
  obtain ⟨asking, hasking⟩ : ∃ asking, asking = opened.run [.submit "a" ""] := ⟨_, rfl⟩
  have howns : opened.Owns [.submit "a" ""] := by
    unfold Owns
    exact ⟨trivial, trivial⟩
  have hfirst : ¬ AskedIn [.submit "a" ""] .output (Snapshot.mk ⟨"a"⟩ "" 1).id := by
    rintro ⟨snapshot, value, hmem, -⟩
    cases List.mem_singleton.mp hmem
  obtain ⟨-, -, hheals⟩ := damaged_artifacts_heal (hdone.reachable (isBare_empty _)) hspelled
    hdamaged .zero "" [] hopened howns hasking hfirst rfl
  obtain ⟨hwithin, hroot, hconfig, -⟩ := reopen_frame _ _ _ _ _ hopened
  have hsubmit := opened.cache.hears_submit (ModuleId.ofPath "a") ""
  have hdisk : asking.disk = opened.disk := by
    rw [hasking]
    rfl
  have hcache : asking.cache = (opened.cache.submit (ModuleId.ofPath "a") "").2 := by
    rw [hasking]
    rfl
  refine ⟨asking, hopened ▸ hasking, (hheals ?_).1 (fun _ => (Output.ofCode "b", true)) false⟩
  rintro ⟨record, hartifact⟩
  obtain ⟨name, raw, hraw⟩ := hartifact.exists_content?
  have hobserve := asking.cache.hears_observe asking.disk ⟨"a"⟩
  rw [hobserve.root, hobserve.config, hcache, hsubmit.root, hsubmit.config, hdisk, hroot, hconfig,
    hdone.root_eq] at hraw
  refine (Disk.content?_cleared (hwithin _ _ hraw)).2 ?_
  rw [List.dropLast_append_of_ne_nil (List.cons_ne_nil _ _)]
  rfl

end World

end Recompile
