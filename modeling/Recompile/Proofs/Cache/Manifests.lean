import Recompile.Proofs.Cache.Records
import Recompile.Proofs.Manifest.Document

/-!
# The manifests of a cache root

The manifest of a cache is replaced when the cache attaches to a namespace and when everything is
thrown away; in between, hearing of texts and storing results change it.  Storing results records
the keys of pending records and changes nothing else that the manifest says of a module
(`Cache.key?_done`, `Cache.generation_done`).  What a flush leaves at the place of a manifest is
what was there or the manifest that the cache then has (`Cache.manifest_of_done`).

`Cache.Saves` says that the manifest of a cache and all manifests below its root have a property. 
It is kept as long as a new manifest has the property and a flush does not take it away.
-/

namespace Recompile

namespace Manifest

/-! ### Recording keys -/

/-- Recording a key changes no text. -/
lemma content?_recordKey (manifest : Manifest) (shelf : Shelf) (id other : ModuleId)
    (key : String) :
    (manifest.recordKey shelf id key).content? other = manifest.content? other := by
  unfold content? recordKey
  rw [state_update]
  split_ifs with h
  · rw [h]
    cases shelf <;> rfl
  · rfl

/-- Recording a key raises no generation. -/
lemma generation_recordKey (manifest : Manifest) (shelf : Shelf) (id other : ModuleId)
    (key : String) :
    (manifest.recordKey shelf id key).generation other = manifest.generation other := by
  unfold generation recordKey
  rw [state_update]
  split_ifs with h
  · rw [h]
    cases shelf <;> rfl
  · rfl

/-- A key was recorded now, or it was there. -/
lemma key?_recordKey {manifest : Manifest} {shelf other : Shelf} {id file : ModuleId}
    {key found : String}
    (h : ((manifest.recordKey shelf id key).state file).key? other = some found) :
    file = id ∧ other = shelf ∧ found = key ∨ (manifest.state file).key? other = some found := by
  unfold recordKey at h
  rw [state_update] at h
  split_ifs at h with hfile
  · subst hfile
    cases shelf <;> cases other
    · exact .inl ⟨rfl, rfl, (Option.some.inj h).symm⟩
    · exact .inr h
    · exact .inr h
    · exact .inl ⟨rfl, rfl, (Option.some.inj h).symm⟩
  · exact .inr h

/-- The manifest without modules knows nothing. -/
lemma state_fresh (tool : String) (config : Digest) (id : ModuleId) :
    (fresh tool config).state id = .unknown := by
  unfold state fresh
  rw [Std.ExtTreeMap.getElem?_empty]
  rfl

end Manifest

namespace Cache

variable {cache : Cache} {disk : Disk}

/-! ### What a flush records -/

/-- Recording the keys of records, one after the other. -/
def recordKeys (cache : Cache) (records : List (Slot × Record)) (manifest : Manifest) : Manifest :=
  records.foldl (fun manifest (slot, record) =>
    manifest.recordKey slot.shelf slot.file (record.key cache.config)) manifest

/-- What is known of a module after keys were recorded is known before, or a key of a record. -/
lemma state_recordKeys (cache : Cache) (records : List (Slot × Record)) (manifest : Manifest)
    (id : ModuleId) :
    (cache.recordKeys records manifest).content? id = manifest.content? id ∧
      (cache.recordKeys records manifest).generation id = manifest.generation id ∧
      ∀ shelf key, ((cache.recordKeys records manifest).state id).key? shelf = some key →
        (∃ record, (⟨shelf, id⟩, record) ∈ records ∧ key = record.key cache.config) ∨
          (manifest.state id).key? shelf = some key := by
  induction records generalizing manifest with
  | nil => exact ⟨rfl, rfl, fun shelf key h => .inr h⟩
  | cons entry rest ih =>
    obtain ⟨slot, record⟩ := entry
    obtain ⟨hcontent, hgeneration, hkey⟩ :=
      ih (manifest.recordKey slot.shelf slot.file (record.key cache.config))
    refine ⟨hcontent.trans (manifest.content?_recordKey _ _ _ _),
      hgeneration.trans (manifest.generation_recordKey _ _ _ _), fun shelf key hfound => ?_⟩
    rcases hkey shelf key hfound with ⟨other, hother, heq⟩ | hold
    · exact .inl ⟨other, List.mem_cons_of_mem _ hother, heq⟩
    · rcases Manifest.key?_recordKey hold with ⟨rfl, rfl, heq⟩ | hold
      · exact .inl ⟨record, List.mem_cons_self, heq⟩
      · exact .inr hold

/-- The manifest of a flush has the keys of the pending records. -/
lemma state_flushedManifest (cache : Cache) (id : ModuleId) :
    cache.flushedManifest.state id =
      (cache.recordKeys cache.pendingRecords cache.manifest).state id := rfl

/-- The manifest after a flush is the one before, or it is the one with the keys of the pending
records, and then all artifacts were written. -/
lemma manifest_done (cache : Cache) (disk : Disk) :
    (cache.done disk).2.1.manifest = cache.manifest ∨
      (cache.done disk).2.1.manifest = cache.flushedManifest ∧
        ∃ written, Write.runAll cache.artifactWrites disk = (.ok (), written) ∧
          ∀ config directory name,
            (cache.done disk).2.2.content? (cache.root.place ++ [config, directory, name]) =
              written.content? (cache.root.place ++ [config, directory, name]) := by
  unfold done
  split_ifs
  · exact .inl rfl
  · cases hrun : Write.runAll cache.artifactWrites disk with
    | mk result written =>
      cases result with
      | error error => exact .inl rfl
      | ok done =>
        have hsave := fun config directory name =>
          cache.content?_save cache.flushedManifest written
            (cache.root.place ++ [config, directory, name]) artifact_ne_manifest
        refine .inr ?_
        simp only
        cases hsaved : cache.flushedManifest.save written cache.directory with
        | mk saved left =>
          rw [hsaved] at hsave
          cases saved <;> exact ⟨rfl, written, rfl, hsave⟩

/-- A flush changes no recorded text. -/
lemma content?_manifest_done (cache : Cache) (disk : Disk) (id : ModuleId) :
    (cache.done disk).2.1.manifest.content? id = cache.manifest.content? id := by
  rcases cache.manifest_done disk with heq | ⟨heq, -⟩
  · rw [heq]
  · rw [heq]
    exact (cache.state_recordKeys _ _ id).1

/-- A flush raises no generation. -/
lemma generation_done (cache : Cache) (disk : Disk) (id : ModuleId) :
    (cache.done disk).2.1.generation id = cache.generation id := by
  unfold generation
  rcases cache.manifest_done disk with heq | ⟨heq, -⟩
  · rw [heq]
  · rw [heq]
    exact (cache.state_recordKeys _ _ id).2.1

/-- A key after a flush was there before, or it is that of a pending record, and then its artifact
is that of a record in memory. -/
theorem key?_done {id : ModuleId} {shelf : Shelf} {key : String}
    (h : ((cache.done disk).2.1.manifest.state id).key? shelf = some key) :
    (cache.manifest.state id).key? shelf = some key ∨
      ∃ record, (⟨shelf, id⟩, record) ∈ cache.pendingRecords ∧ key = record.key cache.config ∧
        ∀ content, (cache.done disk).2.2.content? (cache.archive.locate shelf key) = some content →
          cache.Stores (cache.archive.locate shelf key) content := by
  rcases cache.manifest_done disk with heq | ⟨heq, written, hrun, hleft⟩
  · rw [heq] at h
    exact .inl h
  · rw [heq] at h
    rcases (cache.state_recordKeys _ _ id).2.2 shelf key h with ⟨record, hrecord, rfl⟩ | hold
    · refine .inr ⟨record, hrecord, rfl, fun content hcontent => ?_⟩
      have hplace : (cache.artifactWrite (⟨shelf, id⟩, record)).path.place =
          cache.archive.locate shelf (record.key cache.config) := by
        rw [path_artifactWrite]
        exact Archive.place_pathOf _ shelf (record.isName_key cache.config)
      have hputs := Write.content?_runAll_ok hrun (List.mem_map.mpr ⟨_, hrecord, rfl⟩)
      rw [hplace] at hputs
      obtain ⟨bytes, hbytes, hstores⟩ := stores_of_puts hputs
      rw [locate_archive, hleft, ← locate_archive, hbytes] at hcontent
      rwa [← Option.some.inj hcontent]
    · exact .inl hold

/-! ### What a flush leaves at the place of a manifest -/

/-- A flush puts at the place of a manifest what was there, or the manifest that the cache then
has. -/
theorem manifest_of_done (cache : Cache) (disk : Disk) (config : Digest) {content : Bytes}
    (h : (cache.done disk).2.2.content? (cache.root.place ++ [config.hex, "manifest.json"]) =
      some content) :
    disk.content? (cache.root.place ++ [config.hex, "manifest.json"]) = some content ∨
      config = cache.config ∧
        Manifest.ofContent? content = some (cache.done disk).2.1.manifest := by
  have hwrites : ∀ location : Location,
      location = cache.root.place ++ [config.hex, "manifest.json"] →
      (Write.runAll cache.artifactWrites disk).2.content? location = disk.content? location := by
    intro location hlocation
    rcases Write.content?_runAll cache.artifactWrites disk location with hold | hputs
    · exact hold
    · obtain ⟨bytes, -, slot, record, -, hplace, -⟩ := stores_of_puts hputs
      rw [hlocation, locate_archive] at hplace
      exact absurd hplace.symm artifact_ne_manifest
  have hold := hwrites _ rfl
  unfold done at h ⊢
  split_ifs at h ⊢
  · exact .inl h
  · cases hrun : Write.runAll cache.artifactWrites disk with
    | mk result written =>
      rw [hrun] at h hold
      cases result with
      | error error =>
        simp only at h hold
        exact .inl (hold.symm.trans h)
      | ok done =>
        simp only at h hold ⊢
        cases hsave : cache.flushedManifest.save written cache.directory with
        | mk saved left =>
          rw [hsave] at h
          unfold Manifest.save at hsave
          cases saved with
          | error error =>
            simp only at h ⊢
            rw [Write.content?_run_error hsave, hold] at h
            exact .inl h
          | ok done =>
            simp only at h ⊢
            rw [Write.content?_run hsave] at h
            split_ifs at h with hplace
            · rw [Manifest.saving, place_manifest] at hplace
              refine .inr ⟨manifest_injective hplace, ?_⟩
              rw [← Option.some.inj h]
              exact Manifest.ofContent?_saving _ _
            · rw [hold] at h
              exact .inl h

/-! ### Attaching -/

/-- Attaching takes over a manifest that is on the disk, or leaves the cache as it is, or makes the
namespace a new one. -/
lemma attach_cases (cache : Cache) (disk : Disk) :
    (∃ manifest content,
        disk.content? (cache.root.place ++ [cache.config.hex, "manifest.json"]) = some content ∧
        Manifest.ofContent? content = some manifest ∧
        cache.attach disk =
          ({ cache with
              graph := cache.graph.insertAll manifest.edges
              unobserved := unseen cache.snapshots manifest
              manifest }, disk)) ∨
      (cache.attach disk).1 = cache ∨
      (cache.attach disk).1 =
        { cache with
          manifest := .fresh cache.tool cache.config, dirty := false, unobserved := ∅ } := by
  unfold attach
  split
  · rename_i manifest hload
    split_ifs
    · obtain ⟨content, hcontent, hmanifest⟩ := Manifest.content?_of_load hload
      rw [place_manifest] at hcontent
      exact .inl ⟨manifest, content, hcontent, hmanifest, rfl⟩
    · exact .inr (.inr rfl)
  · exact .inr (.inl rfl)
  · exact .inr (.inl rfl)

/-- A flush that stores something saves the manifest that the cache then has. -/
lemma save_of_done {after : Cache} {left : Disk} {count : Nat}
    (h : cache.done disk = (.flushed count, after, left)) :
    ∃ written, after.manifest.save written cache.directory = (.ok (), left) := by
  unfold done at h
  split_ifs at h
  · cases h
  · cases hrun : Write.runAll cache.artifactWrites disk with
    | mk result written =>
      rw [hrun] at h
      cases result with
      | error error => cases h
      | ok done =>
        simp only at h
        cases hsave : cache.flushedManifest.save written cache.directory with
        | mk saved stored =>
          rw [hsave] at h
          cases saved with
          | error error => cases h
          | ok done =>
            obtain ⟨-, hrest⟩ := Prod.mk.inj h
            obtain ⟨rfl, rfl⟩ := Prod.mk.inj hrest
            exact ⟨written, hsave⟩

/-- A flush without results saves the manifest, if anything can be written to its place. -/
lemma done_of_no_records (hdirty : cache.dirty = true) (hrecords : cache.pendingRecords = [])
    {content : Bytes}
    (hwrite : ((Write.mk (cache.directory.join Manifest.fileName) content).run disk).1.isOk) :
    ∃ left, cache.done disk =
      (.flushed 0, { cache with manifest := cache.flushedManifest, pending := ∅, dirty := false },
        left) := by
  have hsave := Write.isOk_run hwrite (Bytes.ofText cache.flushedManifest.document)
  have hwrites : cache.artifactWrites = [] := by
    unfold artifactWrites
    rw [hrecords]
    rfl
  cases hsaved : cache.flushedManifest.save disk cache.directory with
  | mk result left =>
    have hresult : (cache.flushedManifest.save disk cache.directory).1.isOk := hsave
    rw [hsaved] at hresult
    cases result with
    | error error => cases hresult
    | ok done =>
      refine ⟨left, ?_⟩
      have hnothing : Write.runAll [] disk = (.ok (), disk) := rfl
      unfold Cache.done
      rw [hdirty, hwrites, hnothing, Bool.not_true, Bool.and_false]
      simp only [hsaved, hrecords, Bool.false_eq_true, if_false, List.length_nil]

/-- A process that opens the namespace takes over the manifest that is loaded there, if it is that of
its tool and configuration. -/
lemma openAt_of_load {root : Path} {config : Digest} {tool : String} {manifest : Manifest}
    (h : Manifest.load disk (root.join ⟨config.hex⟩) = .ok (some manifest))
    (hcompatible : manifest.isCompatible tool config) (entries : List ModuleId) :
    openAt disk root config tool entries =
      ({ fresh root config tool entries with
          graph := ImportGraph.empty.insertAll manifest.edges
          unobserved := unseen .empty manifest
          manifest }, disk) := by
  have hdirectory : (fresh root config tool entries).directory = root.join ⟨config.hex⟩ := rfl
  unfold openAt attach
  rw [hdirectory, h]
  exact if_pos hcompatible

/-- A process that opens the namespace after a flush takes over the manifest that the flush left. -/
theorem openAt_done {after : Cache} {left : Disk} {count : Nat}
    (h : cache.done disk = (.flushed count, after, left))
    (hcompatible : after.manifest.isCompatible cache.tool cache.config) (entries : List ModuleId) :
    openAt left cache.root cache.config cache.tool entries =
      ({ fresh cache.root cache.config cache.tool entries with
          graph := ImportGraph.empty.insertAll after.manifest.edges
          unobserved := unseen .empty after.manifest
          manifest := after.manifest }, left) := by
  obtain ⟨written, hsave⟩ := save_of_done h
  exact openAt_of_load (Manifest.load_of_save hsave) hcompatible entries

end Cache

/-! ### Manifests with a property -/

/-- A property that manifests may have, with the configuration they belong to. -/
abbrev ManifestProperty := Digest → Manifest → Prop

/-- Every manifest below a cache root has a property. -/
def Disk.Saves (disk : Disk) (property : ManifestProperty) (root : Location) : Prop :=
  ∀ (config : Digest) (content : Bytes) (manifest : Manifest),
    disk.content? (root ++ [config.hex, "manifest.json"]) = some content →
    Manifest.ofContent? content = some manifest → property config manifest

/-- The manifest of a cache and those below its root have a property. -/
structure Cache.Saves (cache : Cache) (property : ManifestProperty) (disk : Disk) : Prop where
  /-- The manifest of the cache. -/
  manifest : property cache.config cache.manifest
  /-- The manifests below the root. -/
  saved : disk.Saves property cache.root.place

variable {property : ManifestProperty} {cache : Cache} {disk : Disk}

/-- Taking contents away keeps the property. -/
lemma Disk.Saves.within {root : Location} {less : Disk} (h : disk.Saves property root)
    (hless : less.Within disk) : less.Saves property root :=
  fun config content manifest hcontent => h config content manifest (hless _ _ hcontent)

namespace Cache.Saves

/-- The property may be weakened. -/
lemma mono {weaker : ManifestProperty} (h : cache.Saves property disk)
    (hweaker : ∀ config manifest, property config manifest → weaker config manifest) :
    cache.Saves weaker disk where
  manifest := hweaker _ _ h.manifest
  saved config content manifest hcontent hmanifest :=
    hweaker _ _ (h.saved config content manifest hcontent hmanifest)

/-- Taking contents away keeps the property. -/
lemma within {less : Disk} (h : cache.Saves property disk) (hless : less.Within disk) :
    cache.Saves property less :=
  ⟨h.manifest, h.saved.within hless⟩

/-- Throwing everything away keeps the property, if a new manifest has it. -/
lemma clean (h : cache.Saves property disk)
    (hfresh : property cache.config (.fresh cache.tool cache.config)) :
    (cache.clean disk).1.Saves property (cache.clean disk).2 :=
  ⟨hfresh, h.saved.within (cache.discard_within disk)⟩

/-- Attaching keeps the property, if a new manifest has it. -/
theorem attach (h : cache.Saves property disk)
    (hfresh : property cache.config (.fresh cache.tool cache.config)) :
    (cache.attach disk).1.Saves property (cache.attach disk).2 := by
  obtain ⟨hroot, hconfig, -⟩ := cache.attach_frame disk
  constructor
  · rw [hconfig]
    rcases cache.attach_cases disk with ⟨manifest, content, hcontent, hmanifest, heq⟩ | heq | heq
    · rw [heq]
      exact h.saved cache.config content manifest hcontent hmanifest
    · rw [heq]
      exact h.manifest
    · rw [heq]
      exact hfresh
  · rw [hroot]
    exact h.saved.within (cache.attach_within disk)

/-- Opening a namespace keeps the property, if a new manifest has it. -/
lemma openAt {root : Path} {config : Digest} {tool : String} (h : disk.Saves property root.place)
    (hfresh : property config (.fresh tool config)) (entries : List ModuleId) :
    (Cache.openAt disk root config tool entries).1.Saves property
      (Cache.openAt disk root config tool entries).2 :=
  attach ⟨hfresh, h⟩ hfresh

/-- A flush keeps the property, if the manifest that it leaves has it. -/
theorem done (h : cache.Saves property disk)
    (hdone : property cache.config (cache.done disk).2.1.manifest) :
    (cache.done disk).2.1.Saves property (cache.done disk).2.2 := by
  obtain ⟨hroot, hconfig, -⟩ := cache.done_frame disk
  constructor
  · rw [hconfig]
    exact hdone
  · rw [hroot]
    intro config content manifest hcontent hmanifest
    rcases cache.manifest_of_done disk config hcontent with hold | ⟨rfl, hnew⟩
    · exact h.saved config content manifest hold hmanifest
    · rw [hnew] at hmanifest
      rw [← Option.some.inj hmanifest]
      exact hdone

/-- Attaching to the namespace of another configuration after a flush keeps the property, if a new
manifest has it. -/
lemma switch (h : cache.Saves property disk)
    (hdone : property cache.config (cache.done disk).2.1.manifest) {config : Digest}
    (hfresh : property config (.fresh cache.tool config)) :
    (((cache.done disk).2.1.switch config).attach (cache.done disk).2.2).1.Saves property
      (((cache.done disk).2.1.switch config).attach (cache.done disk).2.2).2 := by
  obtain ⟨-, -, htool, -⟩ := cache.done_frame disk
  have hnew : property config (.fresh (cache.done disk).2.1.tool config) := by
    rw [htool]
    exact hfresh
  have hswitch : ((cache.done disk).2.1.switch config).Saves property (cache.done disk).2.2 :=
    ⟨hnew, (h.done hdone).saved⟩
  exact hswitch.attach hnew

end Cache.Saves

end Recompile
