import Recompile.Proofs.Cache.Snapshots

/-!
# Generations and keys

The generation of a module only grows as long as its manifest lives, and what is known of earlier
generations stays around: in the memory of a cache, in the archive, and as keys in manifests.
`Cache.Lineage` says that none of it is ahead of its time.  The records in memory and the keys in a
manifest belong to generations that the manifest has reached, and each of them is about something
that was once asked for.

The name of an artifact is a digest of what the artifact is about.  That names tell generations
apart is therefore no fact about caches; it is stated for the questions of a run (`KeysApart`) and
needed only where an artifact from one generation might be taken for that of another.
-/

namespace Recompile

/-! ### Stamps -/

/-- What an answer or a record is about, whatever part it has. -/
structure Stamp where
  /-- The module. -/
  file : ModuleId
  /-- The digest of its text. -/
  content : Digest
  /-- The configuration. -/
  config : Digest
  /-- The generation of the module. -/
  generation : UInt64

/-- The name of the artifact that is about this. -/
def Stamp.key (stamp : Stamp) : String :=
  artifactKey stamp.file stamp.content stamp.config stamp.generation

/-- What an answer is about. -/
def Answer.stamp (answer : Answer) : Stamp :=
  ⟨answer.file, answer.content, answer.config, answer.generation⟩

/-- What a record of a configuration is about. -/
def Record.stamp (record : Record) (config : Digest) : Stamp :=
  ⟨record.file, record.content, config, record.generation⟩

/-- Something was asked for about this. -/
def Asked (log : List Served) (stamp : Stamp) : Prop :=
  ∃ served ∈ log, served.answer.stamp = stamp

/-- Among the questions of a run about one module and configuration, those with one key have one
generation. -/
def KeysApart (log : List Served) : Prop :=
  ∀ stamp other : Stamp, Asked log stamp → Asked log other → stamp.file = other.file →
    stamp.config = other.config → stamp.key = other.key → stamp.generation = other.generation

/-- Where nothing was asked for, keys are apart. -/
lemma keysApart_nil : KeysApart [] := by
  rintro stamp other ⟨served, hmem, -⟩
  cases hmem

/-- The record is about something that was asked for. -/
def Record.Asked (log : List Served) : RecordProperty := fun config _ record =>
  Recompile.Asked log (record.stamp config)

/-- What a shelf keeps of a record is about the same. -/
lemma Record.asked_shelved (log : List Served) : (Record.Asked log).Shelved := by
  intro config tool record found shelf hasked hshelf
  obtain ⟨hfile, hcontent, hgeneration⟩ := stamp_onShelf? hshelf
  unfold Record.Asked stamp at hasked ⊢
  rw [hfile, hcontent, hgeneration]
  exact hasked

/-- The generations of a manifest are bounded, and its keys belong to generations that it has
reached. -/
structure Manifest.Traced (log : List Served) (texts : Nat) (config : Digest)
    (manifest : Manifest) : Prop where
  /-- The generations. -/
  bounded : ∀ id, (manifest.generation id).toNat ≤ texts
  /-- The keys. -/
  key : ∀ id shelf key, (manifest.state id).key? shelf = some key → ∃ stamp, Asked log stamp ∧
    stamp.file = id ∧ stamp.config = config ∧ stamp.key = key ∧
    stamp.generation.toNat ≤ (manifest.generation id).toNat

variable {log more : List Served} {texts count : Nat}

namespace Manifest

/-- A new manifest is traced. -/
lemma traced_fresh (log : List Served) (texts : Nat) (tool : String) (config : Digest) :
    (fresh tool config).Traced log texts config where
  bounded id := by
    unfold generation
    rw [state_fresh]
    exact Nat.zero_le _
  key id shelf key hkey := by
    rw [state_fresh] at hkey
    cases shelf <;> cases hkey

/-- A manifest stays traced when more is asked for and more texts are compared. -/
lemma Traced.mono {config : Digest} {manifest : Manifest} (h : manifest.Traced log texts config)
    (hlog : ∀ stamp, Asked log stamp → Asked more stamp) (hle : texts ≤ count) :
    manifest.Traced more count config where
  bounded id := (h.bounded id).trans hle
  key id shelf key hkey := by
    obtain ⟨stamp, hasked, hstamp⟩ := h.key id shelf key hkey
    exact ⟨stamp, hlog stamp hasked, hstamp⟩

end Manifest

/-! ### Lineages -/

/-- What is known below a cache root is about something that was asked for, at generations that the
manifests have reached. -/
structure Cache.Lineage (cache : Cache) (disk : Disk) (log : List Served) (texts : Nat) : Prop where
  /-- The generations of the records in memory. -/
  memory : ∀ (slot : Slot) (record : Record), cache.memory[slot]? = some record →
    record.generation.toNat ≤ (cache.generation slot.file).toNat
  /-- What the records are about. -/
  records : cache.Keeps (Record.Asked log) disk
  /-- The manifests. -/
  manifests : cache.Saves (Manifest.Traced log texts) disk

namespace Cache.Lineage

variable {cache after : Cache} {disk : Disk}

/-- More may be asked for, and more texts compared. -/
lemma mono (h : cache.Lineage disk log texts) (hlog : ∀ stamp, Asked log stamp → Asked more stamp)
    (hle : texts ≤ count) : cache.Lineage disk more count where
  memory := h.memory
  records := h.records.mono fun _ _ _ => hlog _
  manifests := h.manifests.mono fun _ _ htraced => htraced.mono hlog hle

/-- Taking contents away keeps a lineage. -/
lemma within {less : Disk} (h : cache.Lineage disk log texts) (hless : less.Within disk) :
    cache.Lineage less log texts :=
  ⟨h.memory, h.records.within hless, h.manifests.within hless⟩

/-- As texts are compared, generations grow, and so a lineage stays one. -/
theorem hears (h : cache.Lineage disk log texts) (hhears : Hears count cache after)
    (hlt : texts + count < 2 ^ 64) : after.Lineage disk log (texts + count) where
  memory slot record hrecord := by
    rw [hhears.memory] at hrecord
    have hgrow := hhears.generation texts h.manifests.manifest.bounded hlt slot.file
    exact (h.memory slot record hrecord).trans hgrow.1
  records := h.records.hears hhears
  manifests := by
    have hgrow := hhears.generation texts h.manifests.manifest.bounded hlt
    refine ⟨⟨fun id => (hgrow id).2, fun id shelf key hkey => ?_⟩, ?_⟩
    · rw [hhears.key] at hkey
      obtain ⟨stamp, hasked, hfile, hconfig, hstamp, hle⟩ :=
        h.manifests.manifest.key id shelf key hkey
      exact ⟨stamp, hasked, hfile, hconfig.trans hhears.config.symm, hstamp,
        hle.trans (hgrow id).1⟩
    · rw [hhears.root]
      intro config content manifest hcontent hmanifest
      exact (h.manifests.saved config content manifest hcontent hmanifest).mono (fun _ => id)
        (Nat.le_add_right _ _)

/-- A record about something that was asked for may be put into memory, if its generation was
reached. -/
lemma insert (h : cache.Lineage disk log texts) {slot : Slot} {record : Record}
    (hfile : record.file = slot.file) (hasked : Asked log (record.stamp cache.config))
    (hle : record.generation.toNat ≤ (cache.generation slot.file).toNat) :
    ({ cache with memory := cache.memory.insert slot record } : Cache).Lineage disk log texts where
  memory other found hfound := by
    rw [Std.ExtTreeMap.getElem?_insert] at hfound
    split_ifs at hfound with hslot
    · obtain rfl := Std.LawfulEqOrd.eq_of_compare hslot
      obtain rfl := Option.some.inj hfound
      exact hle
    · exact h.memory other found hfound
  records := h.records.insert hfile hasked
  manifests := ⟨h.manifests.manifest, h.manifests.saved⟩

/-- Looking a part up keeps a lineage. -/
theorem lookup (h : cache.Lineage disk log texts) (part : Part) (snapshot : Snapshot)
    (hlt : texts + (cache.graph.reachable [snapshot.id]).length < 2 ^ 64) :
    (cache.lookup disk part snapshot).2.Lineage disk log
      (texts + (cache.graph.reachable [snapshot.id]).length) := by
  have hobserve := h.hears (cache.hears_observe disk snapshot.id) hlt
  unfold Cache.lookup
  simp only
  rcases (cache.observe disk snapshot.id).fetch_cases disk (part.slot snapshot.id)
    snapshot.fingerprint with ⟨record, -, heq⟩ | ⟨record, hstored, heq⟩ | ⟨-, heq⟩
  · rw [heq]
    exact hobserve
  · rw [heq]
    obtain ⟨hfile, -, hgeneration, hasked⟩ :=
      hobserve.records.stored (Record.asked_shelved log) hstored
    exact hobserve.insert hfile hasked (by rw [hgeneration])
  · rw [heq]
    exact hobserve

/-- Keeping a part that was asked for keeps a lineage. -/
lemma keep (h : cache.Lineage disk log texts) {part : Part} {snapshot : Snapshot}
    {value : part.Value} (hasked : Asked log
      ⟨snapshot.id, snapshot.fingerprint, cache.config, cache.generation snapshot.id⟩) :
    (cache.keep part snapshot value).Lineage disk log texts := by
  obtain ⟨hfile, hcontent, hgeneration, -⟩ := cache.base_spec part snapshot
  obtain ⟨hfile', hcontent', hgeneration'⟩ := part.stamp_set value (cache.base part snapshot)
  have hstamp : (part.set value (cache.base part snapshot)).stamp cache.config =
      ⟨snapshot.id, snapshot.fingerprint, cache.config, cache.generation snapshot.id⟩ := by
    unfold Record.stamp
    rw [hfile', hcontent', hgeneration', hfile, hcontent, hgeneration]
  have hslot : (part.slot snapshot.id).file = snapshot.id := rfl
  have hinsert := h.insert (hfile'.trans (hfile.trans hslot.symm)) (by rw [hstamp]; exact hasked)
    (by rw [hgeneration', hgeneration, hslot])
  exact ⟨hinsert.memory, ⟨hinsert.records.memory, hinsert.records.archives⟩,
    ⟨hinsert.manifests.manifest, hinsert.manifests.saved⟩⟩

/-- After a flush the manifest is traced. -/
lemma traced_done (h : cache.Lineage disk log texts) (disk' : Disk) :
    (cache.done disk').2.1.manifest.Traced log texts cache.config where
  bounded id := by
    have hsame := cache.generation_done disk' id
    unfold generation at hsame
    rw [hsame]
    exact h.manifests.manifest.bounded id
  key id shelf key hkey := by
    have hsame := cache.generation_done disk' id
    unfold generation at hsame
    rw [hsame]
    rcases key?_done hkey with hold | ⟨record, hrecord, rfl, -⟩
    · exact h.manifests.manifest.key id shelf key hold
    · obtain ⟨-, hmemory⟩ := mem_pendingRecords.mp hrecord
      obtain ⟨hfile, hasked⟩ := h.records.memory _ record hmemory
      exact ⟨record.stamp cache.config, hasked, hfile, rfl, rfl, h.memory _ record hmemory⟩

/-- A flush keeps a lineage. -/
theorem done (h : cache.Lineage disk log texts) :
    (cache.done disk).2.1.Lineage (cache.done disk).2.2 log texts where
  memory slot record hrecord := by
    rw [(cache.done_frame disk).2.2.2.1] at hrecord
    rw [cache.generation_done]
    exact h.memory slot record hrecord
  records := h.records.done
  manifests := h.manifests.done (h.traced_done disk)

/-- A cache without records has a lineage, if there is one below its root. -/
lemma of_memory_empty (hmemory : cache.memory = ∅)
    (harchives : disk.Archives (Record.Asked log) cache.root.place)
    (hmanifests : cache.Saves (Manifest.Traced log texts) disk) :
    cache.Lineage disk log texts where
  memory slot record hrecord := by
    rw [hmemory] at hrecord
    simp at hrecord
  records := .of_memory_empty hmemory harchives
  manifests := hmanifests

/-- Throwing everything away keeps a lineage. -/
lemma clean (h : cache.Lineage disk log texts) :
    (cache.clean disk).1.Lineage (cache.clean disk).2 log texts :=
  of_memory_empty rfl h.records.clean.archives
    (h.manifests.clean (Manifest.traced_fresh log texts cache.tool cache.config))

/-- Opening a namespace keeps a lineage. -/
lemma openAt {root : Path} (harchives : disk.Archives (Record.Asked log) root.place)
    (hsaved : disk.Saves (Manifest.Traced log texts) root.place) (config : Digest) (tool : String)
    (entries : List ModuleId) :
    (Cache.openAt disk root config tool entries).1.Lineage
      (Cache.openAt disk root config tool entries).2 log texts := by
  have hkeeps := Keeps.openAt root harchives config tool entries
  have hsaves := Saves.openAt hsaved (Manifest.traced_fresh log texts tool config) entries
  refine of_memory_empty ?_ hkeeps.archives hsaves
  unfold Cache.openAt
  rw [((fresh root config tool entries).attach_frame disk).2.2.2.1]
  rfl

/-- Going over to another configuration keeps a lineage. -/
theorem reconfigure (h : cache.Lineage disk log texts) (config : Digest)
    (hlt : texts + cache.snapshots.snapshots.length < 2 ^ 64) :
    (cache.reconfigure disk config).2.1.Lineage (cache.reconfigure disk config).2.2 log
      (texts + cache.snapshots.snapshots.length) := by
  by_cases hsame : config = cache.config
  · rw [hsame, reconfigure_self]
    exact h.done.mono (fun _ => id) (Nat.le_add_right _ _)
  · obtain ⟨-, -, -, -, -, hsnapshots, -⟩ := cache.done_frame disk
    obtain ⟨-, -, -, hmemory, -, hsnapshots'⟩ :=
      ((cache.done disk).2.1.switch config).attach_frame (cache.done disk).2.2
    have hswitch := h.manifests.switch (h.traced_done disk)
      (Manifest.traced_fresh log texts cache.tool config)
    have harchives : (cache.done disk).2.2.Archives (Record.Asked log)
        ((cache.done disk).2.1.switch config).root.place := h.done.records.archives
    have hattach : (((cache.done disk).2.1.switch config).attach (cache.done disk).2.2).1.Lineage
        (((cache.done disk).2.1.switch config).attach (cache.done disk).2.2).2 log texts :=
      of_memory_empty hmemory (Keeps.attach rfl harchives).archives hswitch
    have hlength : (((cache.done disk).2.1.switch config).attach
        (cache.done disk).2.2).1.snapshots.snapshots.length =
        cache.snapshots.snapshots.length := by
      rw [hsnapshots']
      exact congrArg (fun table : SnapshotTable => table.snapshots.length) hsnapshots
    rw [reconfigure_eq cache disk hsame]
    dsimp only
    rw [← hlength] at hlt ⊢
    exact hattach.hears (hears_recordSnapshots _) hlt

end Cache.Lineage

/-! ### Reachable worlds -/

/-- What was asked for stays asked for. -/
lemma Asked.append {stamp : Stamp} (h : Asked log stamp) (later : List Served) :
    Asked (log ++ later) stamp := by
  obtain ⟨served, hmem, hstamp⟩ := h
  exact ⟨served, List.mem_append_left _ hmem, hstamp⟩

namespace World

/-- What is known in a world is about something that was asked for, at generations that the
manifests have reached. -/
def Lineage (world : World) : Prop :=
  world.cache.Lineage world.disk world.log world.texts

/-- The lineage of a world is one of its cache and its disk. -/
lemma lineage_mk {cache : Cache} {disk : Disk} (h : cache.Lineage disk log texts) :
    (World.mk cache disk log texts).Lineage :=
  h

/-- Asking for a part keeps a lineage. -/
theorem Lineage.ask {world : World} (h : world.Lineage) (part : Part) (snapshot : Snapshot)
    (value : part.Value)
    (hlt : world.texts + (world.cache.graph.reachable [snapshot.id]).length < 2 ^ 64) :
    (world.ask part snapshot value).Lineage := by
  have hlookup := Cache.Lineage.lookup h part snapshot hlt
  unfold World.ask given
  rcases world.cache.answer_cases world.disk part snapshot (fun _ => (value, true)) false with
    ⟨found, -, heq⟩ | ⟨-, heq⟩
  · rw [heq]
    exact lineage_mk (hlookup.mono (fun _ hasked => hasked.append _) (Nat.le_refl _))
  · rw [heq]
    refine lineage_mk ((hlookup.mono (fun _ hasked => hasked.append _) (Nat.le_refl _)).keep ?_)
    exact ⟨_, List.mem_append_right _ (List.mem_singleton_self _), rfl⟩

/-- Texts are counted up. -/
lemma texts_le_take (world : World) (call : Call) : world.texts ≤ (world.take call).texts := by
  cases call <;> simp only [World.take, put, World.ask, Nat.le_refl, Nat.le_add_right]

/-- Texts are counted up over several calls. -/
lemma texts_le_run (world : World) (calls : List Call) : world.texts ≤ (world.run calls).texts := by
  induction calls generalizing world with
  | nil => exact Nat.le_refl _
  | cons call rest ih => exact (texts_le_take world call).trans (ih (world.take call))

/-- Every call keeps a lineage, as long as generations can grow. -/
theorem Lineage.take {world : World} (h : world.Lineage) {call : Call}
    (hcall : world.Allows call) (hlt : (world.take call).texts < 2 ^ 64) :
    (world.take call).Lineage := by
  cases call with
  | reopen config tool entries =>
    exact lineage_mk (.openAt h.records.archives h.manifests.saved config tool entries)
  | submit path text =>
    exact lineage_mk
      (Cache.Lineage.hears h (world.cache.hears_submit (ModuleId.ofPath path) text) hlt)
  | addImport edge =>
    simp only [World.take, Cache.addImport]
    split_ifs
    · exact h
    · exact lineage_mk ⟨h.memory, ⟨h.records.memory, h.records.archives⟩,
        ⟨h.manifests.manifest, h.manifests.saved⟩⟩
  | ask part snapshot value => exact Lineage.ask h part snapshot value hlt
  | done => exact lineage_mk (Cache.Lineage.done h)
  | collect =>
    exact lineage_mk (Cache.Lineage.within h (world.cache.collect_within world.disk))
  | clean => exact lineage_mk (Cache.Lineage.clean h)
  | reconfigure config => exact lineage_mk (Cache.Lineage.reconfigure h config hlt)
  | edit disk =>
    exact lineage_mk ⟨h.memory, ⟨h.records.memory, archives_spares h.records.archives hcall⟩,
      ⟨h.manifests.manifest, saves_spares h.manifests.saved hcall⟩⟩

/-- Reachable worlds have a lineage, as long as generations can grow. -/
theorem Reachable.lineage {root : Path} {world : World} (h : Reachable root world)
    (hlt : world.texts < 2 ^ 64) : world.Lineage := by
  induction h with
  | start hbare config tool entries =>
    exact lineage_mk (.openAt (archives_of_isBare hbare) (saves_of_isBare hbare) config tool
      entries)
  | take _ hcall ih => exact (ih ((texts_le_take _ _).trans_lt hlt)).take hcall hlt

end World

end Recompile
