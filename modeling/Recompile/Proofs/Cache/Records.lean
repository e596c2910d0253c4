import Recompile.Cache.Flush
import Recompile.Cache.Lookup
import Recompile.Proofs.Cache.Texts
import Recompile.Proofs.Storage.Archive
import Recompile.Proofs.Storage.Artifact

/-!
# The records of a cache root

Records are in the memory of a cache and in the artifacts below its root.  `Cache.Keeps` says that
all of them have a property that may depend on the configuration and the tool they belong to, and
that each artifact is stored under the key of its record.  It holds whatever is done with the cache:
what is written is in memory, what is read was written, and what is computed is kept only after it
was shown to have the property (`Cache.Keeps.keep`).

What a flush leaves at the location of an artifact is what was there or a record in memory
(`Cache.content?_done`).
-/

namespace Recompile

/-! ### Frames -/

namespace Cache

section

variable (cache : Cache) (disk : Disk)

/-- Throwing away a namespace adds no content. -/
lemma discard_within : (cache.discard disk).2.Within disk := by
  unfold discard
  simp only
  split
  · exact Disk.removeTree_within (by assumption)
  · exact .refl disk

/-- Attaching adds no content. -/
lemma attach_within : (cache.attach disk).2.Within disk := by
  unfold attach
  split
  · split_ifs
    · exact .refl disk
    · exact cache.discard_within disk
  · exact .refl disk
  · exact .refl disk

/-- Attaching changes the manifest, the edges and the unobserved modules alone. -/
lemma attach_frame : (cache.attach disk).1.root = cache.root ∧
    (cache.attach disk).1.config = cache.config ∧ (cache.attach disk).1.tool = cache.tool ∧
    (cache.attach disk).1.memory = cache.memory ∧ (cache.attach disk).1.pending = cache.pending ∧
    (cache.attach disk).1.snapshots = cache.snapshots := by
  unfold attach discard
  split
  · split_ifs <;> exact ⟨rfl, rfl, rfl, rfl, rfl, rfl⟩
  · exact ⟨rfl, rfl, rfl, rfl, rfl, rfl⟩
  · exact ⟨rfl, rfl, rfl, rfl, rfl, rfl⟩

/-- A flush changes the manifest and what is pending alone. -/
lemma done_frame : (cache.done disk).2.1.root = cache.root ∧
    (cache.done disk).2.1.config = cache.config ∧ (cache.done disk).2.1.tool = cache.tool ∧
    (cache.done disk).2.1.memory = cache.memory ∧ (cache.done disk).2.1.graph = cache.graph ∧
    (cache.done disk).2.1.snapshots = cache.snapshots ∧
    (cache.done disk).2.1.unobserved = cache.unobserved := by
  unfold done
  split_ifs
  · exact ⟨rfl, rfl, rfl, rfl, rfl, rfl, rfl⟩
  · split
    · exact ⟨rfl, rfl, rfl, rfl, rfl, rfl, rfl⟩
    · simp only
      split <;> exact ⟨rfl, rfl, rfl, rfl, rfl, rfl, rfl⟩

/-- What collecting each shelf preserves holds after collecting, also if it fails. -/
theorem collect_induction {motive : Disk → Prop}
    (hshelf : ∀ (shelf : Shelf) (disk : Disk), motive disk →
      motive (cache.archive.collect disk shelf.directory (cache.manifest.liveKeys shelf)).2)
    (h : motive disk) : motive (cache.collect disk).2 := by
  have hcode := hshelf .code disk h
  unfold collect
  simp only
  split
  · rename_i left hcollect
    rwa [hcollect] at hcode
  · rename_i codes left hcollect
    rw [hcollect] at hcode
    have hfindings := hshelf .diagnostics left hcode
    split
    · rename_i hcollect
      rwa [hcollect] at hfindings
    · rename_i hcollect
      rwa [hcollect] at hfindings

/-- Collecting adds no content. -/
lemma collect_within : (cache.collect disk).2.Within disk :=
  collect_induction cache disk (motive := fun left => left.Within disk)
    (fun _ middle hwithin => (cache.archive.collect_within middle _ _).trans hwithin) (.refl disk)

end

/-- The cache that goes over to another configuration, before it attaches. -/
def switch (cache : Cache) (config : Digest) : Cache :=
  { cache with
    config, manifest := .fresh cache.tool config, dirty := false, memory := ∅, pending := ∅,
    unobserved := ∅ }

/-- Going over to another configuration is a flush, attaching, and comparing the texts. -/
lemma reconfigure_eq (cache : Cache) (disk : Disk) {config : Digest} (h : config ≠ cache.config) :
    cache.reconfigure disk config =
      ((cache.done disk).1,
        (((cache.done disk).2.1.switch config).attach (cache.done disk).2.2).1.recordSnapshots,
        (((cache.done disk).2.1.switch config).attach (cache.done disk).2.2).2) := by
  have hconfig : config ≠ (cache.done disk).2.1.config := by
    rw [(cache.done_frame disk).2.1]
    exact h
  unfold reconfigure
  simp only
  rw [if_neg hconfig]
  rfl

/-- Going over to the same configuration is a flush. -/
lemma reconfigure_self (cache : Cache) (disk : Disk) :
    cache.reconfigure disk cache.config = cache.done disk := by
  unfold reconfigure
  simp only
  rw [if_pos (cache.done_frame disk).2.1.symm]

/-! ### What a flush leaves -/

/-- The location of the active namespace. -/
lemma place_directory (cache : Cache) :
    cache.directory.place = cache.root.place ++ [cache.config.hex] :=
  Path.place_join _ cache.config.isName_hex

/-- The location of an artifact of the active namespace. -/
lemma locate_archive (cache : Cache) (shelf : Shelf) (key : String) :
    cache.archive.locate shelf key =
      cache.root.place ++ [cache.config.hex, shelf.directory, key ++ "." ++ Archive.ending] := by
  unfold Archive.locate archive
  rw [place_directory, List.append_assoc]
  rfl

/-- The location of the manifest of the active namespace. -/
lemma place_manifest (cache : Cache) :
    (cache.directory.join Manifest.fileName).place =
      cache.root.place ++ [cache.config.hex, "manifest.json"] := by
  have hname : Path.IsName "manifest.json" := by
    refine Path.isName_of_chars ?_ ⟨'m', by decide, by decide⟩
    rintro c hc rfl
    exact absurd hc (by decide)
  rw [Manifest.fileName, Path.place_join _ hname, place_directory, List.append_assoc]
  rfl

/-- The pending records are the records of the pending slots. -/
lemma mem_pendingRecords {cache : Cache} {slot : Slot} {record : Record} :
    (slot, record) ∈ cache.pendingRecords ↔
      slot ∈ cache.pending ∧ cache.memory[slot]? = some record := by
  unfold pendingRecords
  rw [List.mem_filterMap]
  constructor
  · rintro ⟨other, hother, hrecord⟩
    obtain ⟨found, hfound, heq⟩ := Option.map_eq_some_iff.mp hrecord
    obtain ⟨rfl, rfl⟩ := Prod.mk.inj heq
    exact ⟨Std.ExtTreeSet.mem_toList.mp hother, hfound⟩
  · rintro ⟨hpending, hrecord⟩
    exact ⟨slot, Std.ExtTreeSet.mem_toList.mpr hpending, by rw [hrecord]; rfl⟩

/-- The artifact of a record in memory. -/
def Stores (cache : Cache) (location : Location) (content : Bytes) : Prop :=
  ∃ (slot : Slot) (record : Record), cache.memory[slot]? = some record ∧
    location = cache.archive.locate slot.shelf (record.key cache.config) ∧
    content = Artifact.encode cache.tool record.toBytes

/-- Where the artifact of a record is written. -/
lemma path_artifactWrite (cache : Cache) (slot : Slot) (record : Record) :
    (cache.artifactWrite (slot, record)).path =
      cache.archive.pathOf slot.shelf.directory (record.key cache.config) := by
  simp only [artifactWrite, Archive.storing]

/-- What is written there. -/
lemma content_artifactWrite (cache : Cache) (slot : Slot) (record : Record) :
    (cache.artifactWrite (slot, record)).content =
      Artifact.encode cache.tool record.toBytes := by
  simp only [artifactWrite, Archive.storing, archive]

/-- The writes of a flush put the artifacts of records in memory. -/
lemma stores_of_puts {cache : Cache} {location : Location} {content : Option Bytes}
    (h : Write.Puts cache.artifactWrites location content) :
    ∃ bytes, content = some bytes ∧ cache.Stores location bytes := by
  obtain ⟨write, hwrite, hplace, hcontent⟩ := h
  obtain ⟨⟨slot, record⟩, hrecord, rfl⟩ := List.mem_map.mp hwrite
  rw [content_artifactWrite] at hcontent
  refine ⟨_, hcontent, slot, record, (mem_pendingRecords.mp hrecord).2, ?_, rfl⟩
  rw [← hplace, path_artifactWrite, Archive.place_pathOf _ _ (record.isName_key cache.config)]

/-- Saving a manifest changes the content at its place alone. -/
lemma content?_save (cache : Cache) (manifest : Manifest) (disk : Disk) (location : Location)
    (h : location ≠ cache.root.place ++ [cache.config.hex, "manifest.json"]) :
    (manifest.save disk cache.directory).2.content? location = disk.content? location := by
  unfold Manifest.save
  cases hrun : (manifest.saving cache.directory).run disk with
  | mk result written =>
    cases result with
    | error error => exact Write.content?_run_error hrun location
    | ok done =>
      refine (Write.content?_run hrun location).trans (if_neg ?_)
      rw [Manifest.saving, place_manifest]
      exact h

/-- A location below a shelf is not that of a manifest. -/
lemma artifact_ne_manifest {root : Location} {config directory name other file : String} :
    root ++ [config, directory, name] ≠ root ++ [other, file] := by
  intro h
  have hlength := congrArg List.length h
  simp at hlength

/-- The location of an artifact tells its namespace, its shelf and its name. -/
lemma artifact_injective {root : Location} {config other : Digest} {shelf second : Shelf}
    {name file : String} (h : root ++ [config.hex, shelf.directory, name] =
      root ++ [other.hex, second.directory, file]) :
    config = other ∧ shelf = second ∧ name = file := by
  have hnames := List.append_cancel_left h
  simp only [List.cons.injEq, and_true] at hnames
  exact ⟨Digest.hex_injective hnames.1, Shelf.directory_injective hnames.2.1, hnames.2.2⟩

/-- The location of a manifest tells its namespace. -/
lemma manifest_injective {root : Location} {config other : Digest} {file : String}
    (h : root ++ [config.hex, file] = root ++ [other.hex, file]) : config = other := by
  have hnames := List.append_cancel_left h
  simp only [List.cons.injEq, and_true] at hnames
  exact Digest.hex_injective hnames

/-- After a flush, however it went, there is at the location of an artifact what was there before
or the artifact of a record in memory. -/
theorem content?_done (cache : Cache) (disk : Disk) (config directory name : String)
    {content : Bytes}
    (h : (cache.done disk).2.2.content? (cache.root.place ++ [config, directory, name]) =
      some content) :
    disk.content? (cache.root.place ++ [config, directory, name]) = some content ∨
      cache.Stores (cache.root.place ++ [config, directory, name]) content := by
  unfold done at h
  split_ifs at h
  · exact .inl h
  · have hwrites := Write.content?_runAll cache.artifactWrites disk
      (cache.root.place ++ [config, directory, name])
    -- The manifest is written to another location, so the writes of artifacts decide.
    have hdecide : (Write.runAll cache.artifactWrites disk).2.content?
        (cache.root.place ++ [config, directory, name]) = some content := by
      cases hrun : Write.runAll cache.artifactWrites disk with
      | mk result written =>
        rw [hrun] at h
        cases result with
        | error error => exact h
        | ok done =>
          have hsave := cache.content?_save cache.flushedManifest written
            (cache.root.place ++ [config, directory, name]) artifact_ne_manifest
          rw [← hsave]
          simp only at h
          split at h
          · rename_i hsaved
            rwa [hsaved]
          · rename_i hsaved
            rwa [hsaved]
    rw [hdecide] at hwrites
    rcases hwrites with hold | hputs
    · exact .inl hold.symm
    · obtain ⟨bytes, hbytes, hstores⟩ := stores_of_puts hputs
      rw [Option.some.inj hbytes]
      exact .inr hstores

/-! ### Records with a property -/

end Cache

/-- A property that records may have, with the configuration and the tool they belong to. -/
abbrev RecordProperty := Digest → String → Record → Prop

/-- Every artifact below a cache root is stored under the key of its record, which has a
property. -/
def Disk.Archives (disk : Disk) (property : RecordProperty) (root : Location) : Prop :=
  ∀ (config : Digest) (directory name tool : String) (content payload : Bytes) (record : Record),
    disk.content? (root ++ [config.hex, directory, name]) = some content →
    Artifact.payload tool content = .ok payload → Record.ofBytes payload = .ok record →
    name = record.key config ++ "." ++ Archive.ending ∧ property config tool record

/-- The records in memory are about the modules of their slots, and they and the artifacts below the
root have a property. -/
structure Cache.Keeps (cache : Cache) (property : RecordProperty) (disk : Disk) : Prop where
  /-- The records in memory. -/
  memory : ∀ (slot : Slot) (record : Record), cache.memory[slot]? = some record →
    record.file = slot.file ∧ property cache.config cache.tool record
  /-- The artifacts. -/
  archives : disk.Archives property cache.root.place

variable {property : RecordProperty} {cache : Cache} {disk : Disk}

/-- Taking contents away keeps the property. -/
lemma Disk.Archives.within {root : Location} {less : Disk} (h : disk.Archives property root)
    (hless : less.Within disk) : less.Archives property root :=
  fun config directory name tool content payload record hcontent =>
    h config directory name tool content payload record (hless _ _ hcontent)

/-- The artifact of a record is read as that record, by its tool alone. -/
lemma Record.eq_of_read {tool reader : String} {record found : Record} {payload : Bytes}
    (hpayload : Artifact.payload reader (Artifact.encode tool record.toBytes) = .ok payload)
    (hrecord : Record.ofBytes payload = .ok found) : found = record ∧ reader = tool := by
  obtain ⟨rfl, htool⟩ := Artifact.eq_of_payload_encode hpayload
  rw [← List.append_nil record.toBytes] at hrecord
  exact ⟨Record.eq_of_ofBytes_toBytes_append hrecord, htool.symm⟩

/-- What a cache stores is read as a record in its memory, under its configuration and tool. -/
lemma Cache.Stores.record {config : Digest} {directory name tool : String}
    {content payload : Bytes} {record : Record}
    (h : cache.Stores (cache.root.place ++ [config.hex, directory, name]) content)
    (hpayload : Artifact.payload tool content = .ok payload)
    (hrecord : Record.ofBytes payload = .ok record) :
    config = cache.config ∧ tool = cache.tool ∧
      name = record.key cache.config ++ "." ++ Archive.ending ∧
      ∃ slot : Slot, slot.shelf.directory = directory ∧ cache.memory[slot]? = some record := by
  obtain ⟨slot, stored, hstored, hlocation, rfl⟩ := h
  obtain ⟨rfl, rfl⟩ := Record.eq_of_read hpayload hrecord
  rw [Cache.locate_archive] at hlocation
  have hnames := List.append_cancel_left hlocation
  simp only [List.cons.injEq, and_true] at hnames
  obtain ⟨hconfig, hdirectory, hname⟩ := hnames
  exact ⟨Digest.hex_injective hconfig, rfl, hname, slot, hdirectory.symm, hstored⟩

namespace Cache.Keeps

/-- The property may be weakened. -/
lemma mono {weaker : RecordProperty} (h : cache.Keeps property disk)
    (hweaker : ∀ config tool record, property config tool record → weaker config tool record) :
    cache.Keeps weaker disk where
  memory slot record hrecord :=
    ⟨(h.memory slot record hrecord).1, hweaker _ _ _ (h.memory slot record hrecord).2⟩
  archives config directory name tool content payload record hcontent hpayload hrecord := by
    obtain ⟨hname, hproperty⟩ :=
      h.archives config directory name tool content payload record hcontent hpayload hrecord
    exact ⟨hname, hweaker _ _ _ hproperty⟩

/-- Taking contents away keeps the property. -/
lemma within {less : Disk} (h : cache.Keeps property disk) (hless : less.Within disk) :
    cache.Keeps property less :=
  ⟨h.memory, h.archives.within hless⟩

/-- Hearing of texts keeps the property. -/
lemma hears {count : Nat} {after : Cache} (h : cache.Keeps property disk)
    (hhears : Hears count cache after) : after.Keeps property disk where
  memory := by
    rw [hhears.memory, hhears.config, hhears.tool]
    exact h.memory
  archives := by
    rw [hhears.root]
    exact h.archives

/-- Recording an import keeps the property. -/
lemma addImport (h : cache.Keeps property disk) (edge : Edge) :
    (cache.addImport edge).Keeps property disk := by
  unfold Cache.addImport
  split_ifs
  · exact h
  · exact ⟨h.memory, h.archives⟩

/-- Comparing the current texts keeps the property. -/
lemma recordSnapshots (h : cache.Keeps property disk) :
    cache.recordSnapshots.Keeps property disk :=
  h.hears cache.hears_recordSnapshots

/-- A cache without records keeps the property. -/
lemma of_memory_empty (hmemory : cache.memory = ∅) (h : disk.Archives property cache.root.place) :
    cache.Keeps property disk where
  memory slot record hrecord := by
    rw [hmemory] at hrecord
    simp at hrecord
  archives := h

/-- Attaching a cache without records keeps the property. -/
lemma attach (hmemory : cache.memory = ∅) (h : disk.Archives property cache.root.place) :
    (cache.attach disk).1.Keeps property (cache.attach disk).2 := by
  obtain ⟨hroot, -, -, hsame, -, -⟩ := cache.attach_frame disk
  refine of_memory_empty (hsame.trans hmemory) ?_
  rw [hroot]
  exact h.within (cache.attach_within disk)

/-- Opening a namespace keeps the property. -/
lemma openAt (root : Path) (h : disk.Archives property root.place) (config : Digest)
    (tool : String) (entries : List ModuleId) :
    (Cache.openAt disk root config tool entries).1.Keeps property
      (Cache.openAt disk root config tool entries).2 :=
  attach rfl h

/-- A flush keeps the property, also when it fails. -/
theorem done (h : cache.Keeps property disk) :
    (cache.done disk).2.1.Keeps property (cache.done disk).2.2 := by
  obtain ⟨hroot, hconfig, htool, hmemory, -⟩ := cache.done_frame disk
  constructor
  · rw [hmemory, hconfig, htool]
    exact h.memory
  · rw [hroot]
    intro config directory name tool content payload record hcontent hpayload hrecord
    rcases cache.content?_done disk _ directory name hcontent with hold | hstores
    · exact h.archives config directory name tool content payload record hold hpayload hrecord
    · obtain ⟨rfl, rfl, hname, slot, -, hslot⟩ := hstores.record hpayload hrecord
      exact ⟨hname, (h.memory slot record hslot).2⟩

/-- Throwing everything away keeps the property. -/
lemma clean (h : cache.Keeps property disk) :
    (cache.clean disk).1.Keeps property (cache.clean disk).2 :=
  of_memory_empty rfl (h.archives.within (cache.discard_within disk))

/-- Going over to another configuration keeps the property. -/
theorem reconfigure (h : cache.Keeps property disk) (config : Digest) :
    (cache.reconfigure disk config).2.1.Keeps property (cache.reconfigure disk config).2.2 := by
  by_cases hsame : config = cache.config
  · rw [hsame, reconfigure_self]
    exact h.done
  · rw [reconfigure_eq cache disk hsame]
    have harchives : (cache.done disk).2.2.Archives property
        ((cache.done disk).2.1.switch config).root.place := h.done.archives
    have hmemory : ((cache.done disk).2.1.switch config).memory = ∅ := rfl
    dsimp only
    exact (attach hmemory harchives).recordSnapshots

end Cache.Keeps

/-! ### Lookups -/

namespace Record

/-- A record answers questions about its own module, text and generation. -/
lemma answers_iff {record : Record} {file : ModuleId} {content : Digest} {generation : UInt64} :
    record.answers file content generation = true ↔
      record.file = file ∧ record.content = content ∧ record.generation = generation := by
  unfold answers mismatch?
  split_ifs with hfile hcontent hgeneration
  · simp [hfile]
  · simp [hcontent]
  · simp [hgeneration]
  · simpa using ⟨not_not.mp hfile, not_not.mp hcontent, not_not.mp hgeneration⟩

/-- What a record has for a shelf is about the same module, text and generation. -/
lemma stamp_onShelf? {record found : Record} {shelf : Shelf}
    (h : record.onShelf? shelf = some found) : found.file = record.file ∧
      found.content = record.content ∧ found.generation = record.generation := by
  cases shelf <;> unfold onShelf? at h <;> simp only at h <;> split_ifs at h <;>
    obtain rfl := Option.some.inj h <;> exact ⟨rfl, rfl, rfl⟩

/-- What a record has for a shelf, the record has. -/
lemma get?_onShelf? {record found : Record} {shelf : Shelf} {part : Part} {value : part.Value}
    (h : record.onShelf? shelf = some found) (hvalue : part.get? found = some value) :
    part.get? record = some value := by
  cases shelf <;> unfold onShelf? at h <;> simp only at h <;> split_ifs at h <;>
    obtain rfl := Option.some.inj h <;> cases part <;> first | exact hvalue | cases hvalue

end Record

/-- Setting a part leaves what a record is about. -/
lemma Part.stamp_set (part : Part) (value : part.Value) (record : Record) :
    (part.set value record).file = record.file ∧ (part.set value record).content = record.content ∧
      (part.set value record).generation = record.generation := by
  cases part <;> exact ⟨rfl, rfl, rfl⟩

/-- Whatever part of a record a shelf keeps has the property as well. -/
def RecordProperty.Shelved (property : RecordProperty) : Prop :=
  ∀ (config : Digest) (tool : String) (record found : Record) (shelf : Shelf),
    property config tool record → record.onShelf? shelf = some found → property config tool found

namespace Cache

/-- A live record is in memory and answers the question. -/
lemma live?_eq_some {cache : Cache} {slot : Slot} {content : Digest} {generation : UInt64}
    {record : Record} : cache.live? slot content generation = some record ↔
      cache.memory[slot]? = some record ∧ record.answers slot.file content generation = true := by
  unfold live?
  rw [Option.filter_eq_some_iff]

/-- A stored record is what a shelf keeps of an artifact that the manifest names. -/
lemma stored?_eq_some {cache : Cache} {disk : Disk} {slot : Slot} {content : Digest}
    {generation : UInt64} {record : Record}
    (h : cache.stored? disk slot content generation = some record) :
    ∃ raw payload whole,
      (cache.manifest.state slot.file).key? slot.shelf =
        some (artifactKey slot.file content cache.config generation) ∧
      disk.content? (cache.archive.locate slot.shelf
        (artifactKey slot.file content cache.config generation)) = some raw ∧
      Artifact.payload cache.tool raw = .ok payload ∧ Record.ofBytes payload = .ok whole ∧
      whole.answers slot.file content generation = true ∧
      whole.onShelf? slot.shelf = some record := by
  unfold stored? at h
  simp only at h
  split_ifs at h with hkey
  split at h
  · cases h
  · rename_i payload hread
    split at h
    · cases h
    · rename_i whole hwhole
      split_ifs at h with hanswers
      obtain ⟨raw, hraw, hpayload⟩ :=
        Archive.payload_of_read (isName_artifact _ _ _ _) hread
      exact ⟨raw, payload, whole, hkey, hraw, hpayload, hwhole, hanswers, h⟩

/-- A record is found in memory, or it is found in the archive and taken into memory, or there is
none. -/
lemma fetch_cases (cache : Cache) (disk : Disk) (slot : Slot) (content : Digest) :
    (∃ record, cache.live? slot content (cache.generation slot.file) = some record ∧
        cache.fetch disk slot content = (some record, cache)) ∨
      (∃ record, cache.stored? disk slot content (cache.generation slot.file) = some record ∧
        cache.fetch disk slot content =
          (some record, { cache with memory := cache.memory.insert slot record })) ∨
      cache.live? slot content (cache.generation slot.file) = none ∧
        cache.fetch disk slot content = (none, cache) := by
  unfold fetch
  simp only
  split
  · rename_i record hlive
    exact .inl ⟨record, hlive, rfl⟩
  · rename_i hlive
    split
    · rename_i record hstored
      exact .inr (.inl ⟨record, hstored, rfl⟩)
    · exact .inr (.inr ⟨hlive, rfl⟩)

/-- The record in which a computed part is kept. -/
def base (cache : Cache) (part : Part) (snapshot : Snapshot) : Record :=
  (cache.live? (part.slot snapshot.id) snapshot.fingerprint (cache.generation snapshot.id)).getD
    (.blank snapshot.id snapshot.fingerprint (cache.generation snapshot.id))

/-- It is about the snapshot at the current generation, and it is blank or in memory. -/
lemma base_spec (cache : Cache) (part : Part) (snapshot : Snapshot) :
    (cache.base part snapshot).file = snapshot.id ∧
      (cache.base part snapshot).content = snapshot.fingerprint ∧
      (cache.base part snapshot).generation = cache.generation snapshot.id ∧
      (cache.base part snapshot =
          .blank snapshot.id snapshot.fingerprint (cache.generation snapshot.id) ∨
        cache.memory[part.slot snapshot.id]? = some (cache.base part snapshot)) := by
  unfold base
  cases hlive : cache.live? (part.slot snapshot.id) snapshot.fingerprint
      (cache.generation snapshot.id) with
  | none => exact ⟨rfl, rfl, rfl, .inl rfl⟩
  | some record =>
    obtain ⟨hmemory, hanswers⟩ := live?_eq_some.mp hlive
    obtain ⟨hfile, hcontent, hgeneration⟩ := Record.answers_iff.mp hanswers
    exact ⟨hfile, hcontent, hgeneration, .inr hmemory⟩

namespace Keeps

/-- Reading the texts of unobserved modules keeps the property. -/
lemma observe (h : cache.Keeps property disk) (id : ModuleId) :
    (cache.observe disk id).Keeps property disk :=
  h.hears (cache.hears_observe disk id)

/-- A record for the slot of its module with the property may be put into memory. -/
lemma insert (h : cache.Keeps property disk) {slot : Slot} {record : Record}
    (hfile : record.file = slot.file) (hrecord : property cache.config cache.tool record) :
    ({ cache with memory := cache.memory.insert slot record } : Cache).Keeps property disk where
  memory other found hfound := by
    rw [Std.ExtTreeMap.getElem?_insert] at hfound
    split_ifs at hfound with hslot
    · obtain rfl := Std.LawfulEqOrd.eq_of_compare hslot
      obtain rfl := Option.some.inj hfound
      exact ⟨hfile, hrecord⟩
    · exact h.memory other found hfound
  archives := h.archives

/-- A stored record has the property. -/
lemma stored (h : cache.Keeps property disk) (hshelved : property.Shelved) {slot : Slot}
    {content : Digest} {generation : UInt64} {record : Record}
    (hstored : cache.stored? disk slot content generation = some record) :
    record.file = slot.file ∧ record.content = content ∧ record.generation = generation ∧
      property cache.config cache.tool record := by
  obtain ⟨raw, payload, whole, -, hraw, hpayload, hwhole, hanswers, hshelf⟩ :=
    stored?_eq_some hstored
  rw [locate_archive] at hraw
  obtain ⟨-, hproperty⟩ := h.archives _ _ _ _ _ _ _ hraw hpayload hwhole
  obtain ⟨hfile, hcontent, hgeneration⟩ := Record.answers_iff.mp hanswers
  obtain ⟨hfile', hcontent', hgeneration'⟩ := Record.stamp_onShelf? hshelf
  exact ⟨hfile'.trans hfile, hcontent'.trans hcontent, hgeneration'.trans hgeneration,
    hshelved _ _ _ _ _ hproperty hshelf⟩

/-- Fetching a record keeps the property. -/
lemma fetch (h : cache.Keeps property disk) (hshelved : property.Shelved) (slot : Slot)
    (content : Digest) : (cache.fetch disk slot content).2.Keeps property disk := by
  rcases cache.fetch_cases disk slot content with ⟨record, -, heq⟩ | ⟨record, hstored, heq⟩ |
    ⟨-, heq⟩
  · rw [heq]
    exact h
  · rw [heq]
    obtain ⟨hfile, -, -, hproperty⟩ := h.stored hshelved hstored
    exact h.insert hfile hproperty
  · rw [heq]
    exact h

/-- Looking a part up keeps the property. -/
theorem lookup (h : cache.Keeps property disk) (hshelved : property.Shelved) (part : Part)
    (snapshot : Snapshot) : (cache.lookup disk part snapshot).2.Keeps property disk :=
  (h.observe snapshot.id).fetch hshelved (part.slot snapshot.id) snapshot.fingerprint

/-- Keeping a part keeps the property, if the record with that part has it. -/
theorem keep (h : cache.Keeps property disk) (part : Part) (snapshot : Snapshot)
    (value : part.Value)
    (hset : ∀ record : Record, record.file = snapshot.id →
      record.content = snapshot.fingerprint → record.generation = cache.generation snapshot.id →
      record = .blank snapshot.id snapshot.fingerprint (cache.generation snapshot.id) ∨
        property cache.config cache.tool record →
      property cache.config cache.tool (part.set value record)) :
    (cache.keep part snapshot value).Keeps property disk := by
  obtain ⟨hfile, hcontent, hgeneration, hbase⟩ := cache.base_spec part snapshot
  have hproperty := hset (cache.base part snapshot) hfile hcontent hgeneration
    (hbase.imp_right fun hmemory => (h.memory _ _ hmemory).2)
  have hslot : (part.set value (cache.base part snapshot)).file = (part.slot snapshot.id).file :=
    (part.stamp_set value _).1.trans hfile
  exact ⟨(h.insert hslot hproperty).memory, h.archives⟩

end Keeps

/-- Fetching a record changes the memory alone. -/
lemma fetch_frame (cache : Cache) (disk : Disk) (slot : Slot) (content : Digest) :
    ∃ memory, (cache.fetch disk slot content).2 = { cache with memory } := by
  rcases cache.fetch_cases disk slot content with ⟨record, -, heq⟩ | ⟨record, -, heq⟩ | ⟨-, heq⟩
  all_goals
    rw [heq]
    exact ⟨_, rfl⟩

/-- Looking a part up reads texts and changes the memory. -/
lemma lookup_frame (cache : Cache) (disk : Disk) (part : Part) (snapshot : Snapshot) :
    ∃ memory, (cache.lookup disk part snapshot).2 =
      { cache.observe disk snapshot.id with memory } :=
  fetch_frame _ disk (part.slot snapshot.id) snapshot.fingerprint

/-- A part that is found belongs to a record in memory that answers the question. -/
lemma record_of_lookup {cache : Cache} {disk : Disk} {part : Part} {snapshot : Snapshot}
    {value : part.Value} (h : (cache.lookup disk part snapshot).1 = some value) :
    ∃ record, (cache.lookup disk part snapshot).2.memory[part.slot snapshot.id]? = some record ∧
      record.file = snapshot.id ∧ record.content = snapshot.fingerprint ∧
      record.generation = (cache.lookup disk part snapshot).2.generation snapshot.id ∧
      part.get? record = some value := by
  unfold lookup at h ⊢
  simp only at h ⊢
  set observed := cache.observe disk snapshot.id with hobserved
  rcases observed.fetch_cases disk (part.slot snapshot.id) snapshot.fingerprint with
    ⟨record, hlive, heq⟩ | ⟨record, hstored, heq⟩ | ⟨-, heq⟩
  · rw [heq] at h ⊢
    obtain ⟨hmemory, hanswers⟩ := live?_eq_some.mp hlive
    obtain ⟨hfile, hcontent, hgeneration⟩ := Record.answers_iff.mp hanswers
    exact ⟨record, hmemory, hfile, hcontent, hgeneration, h⟩
  · rw [heq] at h ⊢
    obtain ⟨raw, payload, whole, -, -, -, -, hanswers, hshelf⟩ := stored?_eq_some hstored
    obtain ⟨hfile, hcontent, hgeneration⟩ := Record.answers_iff.mp hanswers
    obtain ⟨hfile', hcontent', hgeneration'⟩ := Record.stamp_onShelf? hshelf
    exact ⟨record, Std.ExtTreeMap.getElem?_insert_self, hfile'.trans hfile,
      hcontent'.trans hcontent, hgeneration'.trans hgeneration, h⟩
  · rw [heq] at h
    cases h

/-- An answer is found, or computed and kept. -/
lemma answer_cases {σ : Type} (cache : Cache) (disk : Disk) (part : Part) (snapshot : Snapshot)
    (compute : σ → part.Value × σ) (state : σ) :
    (∃ value, (cache.lookup disk part snapshot).1 = some value ∧
        cache.answer disk part snapshot compute state =
          (value, (cache.lookup disk part snapshot).2, state)) ∨
      (cache.lookup disk part snapshot).1 = none ∧
        cache.answer disk part snapshot compute state =
          ((compute state).1,
            (cache.lookup disk part snapshot).2.keep part snapshot (compute state).1,
            (compute state).2) := by
  unfold answer
  cases hlookup : cache.lookup disk part snapshot with
  | mk found after =>
    cases found with
    | none => exact .inr ⟨rfl, rfl⟩
    | some value => exact .inl ⟨value, rfl, rfl⟩

end Cache

end Recompile
