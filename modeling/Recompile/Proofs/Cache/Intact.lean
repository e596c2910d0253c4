import Recompile.Proofs.Cache.Backed
import Recompile.Proofs.Disk.Passing

/-!
# Manifests whose artifacts are there

A manifest is held if every key in it names an artifact that can be read and belongs to the module
that the key is recorded for (`Manifest.Held`).  A disk is whole below a root if every manifest
there can be read and is held (`Disk.Whole`), and a cache is intact if this is so and its own
manifest is held as well (`Cache.Intact`).

The artifacts that a flush writes replace artifacts of the same keys, so what a manifest names goes
on being there however many writes take effect (`Cache.held_flush`), and the manifest is saved
only when everything that it names was written (`Cache.held_flushedManifest`).  Collecting removes
what the manifest in memory does not name; that never is what the manifest on disk names, since both
name the same (`Cache.Intact.same`): a manifest that can be read can be replaced, so no flush leaves
the two apart.

Throwing away one namespace leaves the others, unless the path of the root passes through that
namespace and comes back (`Path.Clear`).
-/

namespace Recompile

/-! ### The namespaces of a root -/

/-- The root is not reached through one of its own namespaces. -/
def Path.Clear (root : Path) : Prop :=
  ∀ config : Digest, root.Avoids config.hex

/-- A root whose path does not lead up is clear. -/
lemma Path.clear_of_no_up {root : Path} (h : ".." ∉ root.pieces) : root.Clear :=
  fun config => avoids_of_no_up h config.hex

namespace Path

variable {root : Path} {names : List String} {location : Location}

/-- One more name. -/
lemma below_concat (root : Path) (names : List String) (name : String) :
    root.below (names ++ [name]) = (root.below names).join ⟨name⟩ := by
  unfold below
  rw [List.foldl_append]
  rfl

/-- The place that several names lead to. -/
lemma place_below (hnames : ∀ name ∈ names, IsName name) :
    (root.below names).place = root.place ++ names := by
  induction names using List.reverseRecOn with
  | nil => rw [List.append_nil]; rfl
  | append_singleton names name ih =>
    have hname := hnames name (List.mem_append_right _ (List.mem_singleton_self _))
    rw [below_concat, place_join _ hname,
      ih fun other hother => hnames other (List.mem_append_left _ hother), List.append_assoc]

/-- What is passed on the way along several names. -/
lemma passes_below (hnames : ∀ name ∈ names, IsName name) (h : (root.below names).Passes location) :
    root.Passes location ∨ ∃ front, front <+: names ∧ location = root.place ++ front := by
  induction names using List.reverseRecOn with
  | nil => exact .inl h
  | append_singleton names name ih =>
    have hfront : ∀ other ∈ names, IsName other :=
      fun other hother => hnames other (List.mem_append_left _ hother)
    rw [below_concat] at h
    rcases passes_join (hnames name (List.mem_append_right _ (List.mem_singleton_self _))) h with
      hpasses | rfl
    · exact (ih hfront hpasses).imp_right fun ⟨front, hprefix, heq⟩ =>
        ⟨front, hprefix.trans (List.prefix_append _ _), heq⟩
    · exact .inr ⟨names, List.prefix_append _ _, place_below hfront⟩

/-- The place of the manifest of a namespace. -/
lemma place_below_manifest (root : Path) (config : Digest) :
    (root.below [config.hex, "manifest.json"]).place =
      root.place ++ [config.hex, "manifest.json"] :=
  place_below (List.forall_mem_cons.mpr
    ⟨config.isName_hex, List.forall_mem_singleton.mpr Manifest.isName_fileName⟩)

/-- What lies in one namespace does not lie in another one. -/
lemma not_prefix_namespace {config other : Digest} (hne : other ≠ config) {front : List String}
    (hfront : front <+: other.hex :: names) :
    ¬ root.place ++ [config.hex] <+: root.place ++ front := by
  rw [List.prefix_append_right_inj]
  rintro ⟨rest, rfl⟩
  obtain ⟨rest', heq⟩ := hfront
  exact hne (Digest.hex_injective (List.cons.inj heq).1.symm)

end Path

/-- Removing a namespace of a clear root leaves what is read in another one. -/
theorem Disk.read_prune_namespace {disk : Disk} {root : Path} (hclear : root.Clear)
    {config other : Digest} (hne : other ≠ config) {names : List String}
    (hnames : ∀ name ∈ names, Path.IsName name) {content : Bytes}
    (h : disk.read (root.below (other.hex :: names)) = .ok content) :
    (disk.prune (root.place ++ [config.hex])).read (root.below (other.hex :: names)) =
      .ok content := by
  have hall : ∀ name ∈ other.hex :: names, Path.IsName name :=
    List.forall_mem_cons.mpr ⟨other.isName_hex, hnames⟩
  refine read_prune h (fun passed hpassed => ?_) ?_
  · rcases Path.passes_below hall hpassed with hroot | ⟨front, hfront, rfl⟩
    · exact hclear config passed hroot
    · exact Path.not_prefix_namespace hne hfront
  · rw [Path.place_below hall]
    exact Path.not_prefix_namespace hne (List.prefix_refl _)

/-! ### Artifacts that are there -/

/-- The key names an artifact that can be read, and is that of a record of the module. -/
def Archive.Holds (archive : Archive) (disk : Disk) (config : Digest) (id : ModuleId)
    (shelf : Shelf) (key : String) : Prop :=
  ∃ payload record, archive.read disk shelf.directory key = .ok payload ∧
    Record.ofBytes payload = .ok record ∧ record.file = id ∧ record.key config = key

/-- Every key of the manifest names an artifact of its module. -/
def Manifest.Held (manifest : Manifest) (disk : Disk) (archive : Archive) (config : Digest) :
    Prop :=
  ∀ (id : ModuleId) (shelf : Shelf) (key : String), (manifest.state id).key? shelf = some key →
    archive.Holds disk config id shelf key

/-- Every manifest below the root can be read and is held. -/
def Disk.Whole (disk : Disk) (root : Path) : Prop :=
  ∀ (config : Digest) (content : Bytes) (manifest : Manifest),
    disk.content? (root.place ++ [config.hex, "manifest.json"]) = some content →
    Manifest.ofContent? content = some manifest →
    disk.read (root.below [config.hex, "manifest.json"]) = .ok content ∧
      manifest.Held disk ⟨root.below [config.hex], manifest.tool⟩ config

/-- What is held depends on what is read where artifacts are. -/
lemma Archive.Holds.mono {archive : Archive} {disk left : Disk} {config : Digest} {id : ModuleId}
    {shelf : Shelf} {key : String} (h : archive.Holds disk config id shelf key)
    (hread : ∀ raw, ¬ raw.Meaningless → Path.IsName (key ++ "." ++ ending) → key ≠ "" →
      disk.read (archive.pathOf shelf.directory key) = .ok raw →
      left.read (archive.pathOf shelf.directory key) = .ok raw) :
    archive.Holds left config id shelf key := by
  obtain ⟨payload, record, hpayload, hrecord, hfile, rfl⟩ := h
  obtain ⟨raw, hraw, hartifact⟩ := Archive.read_eq_ok.mp hpayload
  have hleft := hread raw (Bytes.not_meaningless_of_payload hartifact) (record.isName_key config)
    (artifactKey_ne_empty _ _ _ _) hraw
  exact ⟨payload, record, Archive.read_eq_ok.mpr ⟨raw, hleft, hartifact⟩, hrecord, hfile, rfl⟩

/-- A new manifest is held. -/
lemma Manifest.held_fresh (tool : String) (config : Digest) (disk : Disk) (archive : Archive)
    (other : Digest) : (fresh tool config).Held disk archive other := by
  intro id shelf key hkey
  rw [state_fresh] at hkey
  cases shelf <;> cases hkey

/-- Where everything is whole, a manifest is loaded exactly if it is there. -/
lemma Disk.Whole.load_iff {disk : Disk} {root : Path} (h : disk.Whole root) (config : Digest)
    (manifest : Manifest) :
    Manifest.load disk (root.join ⟨config.hex⟩) = .ok (some manifest) ↔
      ∃ content, disk.content? (root.place ++ [config.hex, "manifest.json"]) = some content ∧
        Manifest.ofContent? content = some manifest := by
  rw [Manifest.load_eq_some]
  refine exists_congr fun content => and_congr_left fun hmanifest => ?_
  rw [Manifest.join_fileName]
  refine ⟨fun hread => ?_, fun hcontent => (h config content manifest hcontent hmanifest).1⟩
  have hcontent := Disk.content?_of_read hread
  rw [Path.place_below_manifest] at hcontent
  exact hcontent

/-! ### Records that all fit -/

/-- Whatever record comes from the answers that were computed, its artifact can be read back. -/
def Fitting (log : List Served) : Prop :=
  ∀ served ∈ log, ∀ (record : Record) (shelf : Shelf),
    record.stamp served.answer.config = served.answer.stamp → record.onShelf? shelf = some record →
    Record.Sound (World.Computed log) served.answer.config served.answer.tool record →
    record.Fits served.answer.tool

/-- Then so it is with fewer answers. -/
lemma Fitting.mono {log later : List Served} (h : Fitting later) (hlog : log ⊆ later) :
    Fitting log :=
  fun served hserved record shelf hstamp hshelf hsound =>
    h served (hlog hserved) record shelf hstamp hshelf fun part value hvalue =>
      hlog (hsound part value hvalue)

/-- And so it was before. -/
lemma Fitting.of_append {log later : List Served} (h : Fitting (log ++ later)) : Fitting log :=
  h.mono (List.subset_append_left _ _)

/-- Then every record in memory can be read back from its artifact. -/
lemma World.Alone.fits {world : World} {root : Path} {first : Disk} (h : Alone root first world)
    (hbare : first.IsBare root.place) (hfirst : first.Spelled) (hunique : KeysUnique world.log)
    (hfitting : Fitting world.log) (slot : Slot) (record : Record)
    (hrecord : world.cache.memory[slot]? = some record) : record.Fits world.cache.tool := by
  obtain ⟨-, served, hserved, hstamp, htool⟩ :=
    (h.reachable hbare).prompted.memory slot record hrecord
  obtain ⟨-, hsound⟩ := (h.reachable hbare).accounted.records.memory slot record hrecord
  have hconfig : served.answer.config = world.cache.config := congrArg Stamp.config hstamp
  rw [← hconfig] at hstamp
  rw [← hconfig, ← htool] at hsound
  rw [← htool]
  exact hfitting served hserved record slot.shelf hstamp.symm
    ((h.backed hbare hfirst hunique).shelved slot record hrecord) hsound

namespace Cache

variable {cache : Cache} {disk : Disk} {log : List Served}

/-! ### Flushes -/

/-- Where an artifact of a namespace is. -/
lemma place_artifact (root : Path) (config : Digest) (tool : String) (shelf : Shelf) {key : String}
    (hname : Path.IsName (key ++ "." ++ Archive.ending)) :
    ((Archive.mk (root.below [config.hex]) tool).pathOf shelf.directory key).place =
      root.place ++ [config.hex, shelf.directory, key ++ "." ++ Archive.ending] := by
  rw [Archive.place_pathOf _ _ hname, Archive.locate,
    Path.place_below (List.forall_mem_singleton.mpr config.isName_hex), List.append_assoc]
  rfl

section

variable (hasked : cache.Keeps (Record.Asked log) disk) (hunique : KeysUnique log)
  (hfits : ∀ (slot : Slot) (record : Record), cache.memory[slot]? = some record →
    record.Fits cache.tool)

include hasked hunique hfits

/-- However many writes of a flush take effect, a manifest that was held still is. -/
theorem held_flush {manifest : Manifest} {config : Digest} {tool : String}
    (h : manifest.Held disk ⟨cache.root.below [config.hex], tool⟩ config)
    (htool : config = cache.config → tool = cache.tool) (count : Nat) :
    manifest.Held (Write.runAll (cache.flushWrites.take count) disk).2
      ⟨cache.root.below [config.hex], tool⟩ config := by
  intro id shelf key hkey
  obtain ⟨payload, record, hpayload, hrecord, hfile, rfl⟩ := h id shelf key hkey
  obtain ⟨raw, hraw, hartifact⟩ := Archive.read_eq_ok.mp hpayload
  have hplace := place_artifact cache.root config tool shelf (record.isName_key config)
  rcases cache.read_flush count hplace hraw with hsame | ⟨slot, found, hfound, hsame, hread⟩
  · exact ⟨payload, record, Archive.read_eq_ok.mpr ⟨raw, hsame, hartifact⟩, hrecord, hfile, rfl⟩
  · -- A pending record has this place, so it is about the same module.
    rw [hplace, locate_archive] at hsame
    obtain ⟨rfl, rfl, hkeys⟩ := artifact_injective hsame
    simp only [String.append_left_inj] at hkeys
    obtain rfl := htool rfl
    obtain ⟨-, hmemory⟩ := mem_pendingRecords.mp hfound
    have hcontent := Disk.content?_of_read hraw
    rw [hplace] at hcontent
    obtain ⟨-, hold⟩ := hasked.archives _ _ _ _ _ _ _ hcontent hartifact hrecord
    have hnew := (hasked.memory slot found hmemory).2
    have hstamp := congrArg Stamp.file (hunique _ _ hnew hold hkeys.symm)
    obtain ⟨hpayload', hrecord'⟩ :=
      (hfits slot found hmemory : found.Fits cache.archive.tool).read hread
    rw [hkeys]
    exact ⟨_, found, hkeys ▸ hpayload', hrecord', hstamp.trans hfile, rfl⟩

/-- Once all artifacts were written, the manifest that is saved next is held. -/
theorem held_flushedManifest (h : cache.manifest.Held disk cache.archive cache.config)
    {written left : Disk} {count : Nat}
    (hrun : Write.runAll cache.artifactWrites disk = (.ok (), written))
    (hleft : (Write.runAll (cache.flushWrites.take count) disk).2 = left)
    (hsave : (cache.flushedManifest.save written cache.directory).2 = left) :
    cache.flushedManifest.Held left cache.archive cache.config := by
  have hold := held_flush hasked hunique hfits h (fun _ => rfl) count
  rw [hleft] at hold
  intro id shelf key hkey
  rw [state_flushedManifest] at hkey
  rcases (cache.state_recordKeys _ _ id).2.2 shelf key hkey with ⟨record, hrecord, rfl⟩ | hkey
  · -- The key is that of a pending record, which is stored.
    obtain ⟨-, hmemory⟩ := mem_pendingRecords.mp hrecord
    have hread := Backed.read_save_of_pending hasked.memory hunique hrun hrecord
    rw [hsave] at hread
    obtain ⟨hpayload, hwhole⟩ :=
      (hfits _ record hmemory : record.Fits cache.archive.tool).read hread
    exact ⟨_, record, hpayload, hwhole, (hasked.memory _ record hmemory).1, rfl⟩
  · exact hold id shelf key hkey

end

/-- Where the manifest was saved, it is there. -/
lemma eq_of_save {written left : Disk} {content : Bytes} {manifest : Manifest}
    (hsave : cache.flushedManifest.save written cache.directory = (.ok (), left))
    (hcontent : left.content? (cache.root.place ++ [cache.config.hex, "manifest.json"]) =
      some content)
    (hmanifest : Manifest.ofContent? content = some manifest) :
    manifest = cache.flushedManifest := by
  unfold Manifest.save at hsave
  have hplace := Write.content?_run hsave (cache.root.place ++ [cache.config.hex, "manifest.json"])
  rw [Manifest.saving, place_manifest, if_pos rfl] at hplace
  have hnew := Manifest.ofContent?_saving cache.flushedManifest cache.directory
  rw [Manifest.saving, ← Option.some.inj (hcontent.symm.trans hplace), hmanifest] at hnew
  exact Option.some.inj hnew

/-- Saving the manifest changes no other one. -/
lemma content?_of_save {written left : Disk} {config : Digest} {content : Bytes}
    (hsave : cache.flushedManifest.save written cache.directory = (.ok (), left))
    (hcontent : left.content? (cache.root.place ++ [config.hex, "manifest.json"]) = some content) :
    config = cache.config ∨
      written.content? (cache.root.place ++ [config.hex, "manifest.json"]) = some content := by
  unfold Manifest.save at hsave
  rw [Write.content?_run hsave, Manifest.saving, place_manifest] at hcontent
  split_ifs at hcontent with hplace
  · exact .inl (manifest_injective hplace)
  · exact .inr hcontent

/-- The manifest that a flush saves is of the tool and the configuration of the cache. -/
lemma compatible_flushedManifest
    (h : cache.manifest.isCompatible cache.tool cache.config = true) :
    cache.flushedManifest.isCompatible cache.tool cache.config = true := by
  rw [isCompatible_flushedManifest]
  exact h

/-- Where a manifest is there and can be read, it can be replaced after artifacts were written. -/
lemma save_of_whole (h : disk.Whole cache.root) {written : Disk}
    (hrun : Write.runAll cache.artifactWrites disk = (.ok (), written)) {content : Bytes}
    {manifest : Manifest}
    (hcontent : disk.content? (cache.root.place ++ [cache.config.hex, "manifest.json"]) =
      some content)
    (hmanifest : Manifest.ofContent? content = some manifest) :
    ∃ left, cache.flushedManifest.save written cache.directory = (.ok (), left) := by
  have hread := (h cache.config content manifest hcontent hmanifest).1
  have hkeeps := Write.keeps_runAll cache.artifactWrites disk
  have hartifacts := cache.content?_artifactWrites (fun write => id) disk cache.config
  rw [hrun] at hkeeps hartifacts
  rw [← Path.place_below_manifest] at hartifacts
  have hleft := Disk.read_mono hread hkeeps hartifacts
  rw [← Manifest.join_fileName] at hleft
  exact Write.run_of_read cache.config.isName_hex Manifest.isName_fileName hleft
    (Bytes.ofText cache.flushedManifest.document)

/-! ### Intact caches -/

/-- The manifest of the cache is held, everything below the root is whole, and the manifest on disk,
if there is one, is of this tool and configuration and names what the manifest of the cache
names. -/
structure Intact (cache : Cache) (disk : Disk) : Prop where
  /-- The manifest of the cache. -/
  held : cache.manifest.Held disk cache.archive cache.config
  /-- The manifests below the root. -/
  whole : disk.Whole cache.root
  /-- The manifest on disk. -/
  same : ∀ (content : Bytes) (manifest : Manifest),
    disk.content? (cache.root.place ++ [cache.config.hex, "manifest.json"]) = some content →
    Manifest.ofContent? content = some manifest →
    manifest.isCompatible cache.tool cache.config = true ∧
      ∀ id shelf, (manifest.state id).key? shelf = (cache.manifest.state id).key? shelf

namespace Intact

/-- A manifest of a tool and a configuration. -/
lemma tool_of_isCompatible {manifest : Manifest} {tool : String} {config : Digest}
    (h : manifest.isCompatible tool config = true) : manifest.tool = tool := by
  unfold Manifest.isCompatible at h
  simp only [Bool.and_eq_true, decide_eq_true_eq] at h
  exact h.1.2

/-- What leaves the keys leaves a cache intact. -/
lemma frame {after : Cache} (h : cache.Intact disk) (hroot : after.root = cache.root)
    (hconfig : after.config = cache.config) (htool : after.tool = cache.tool)
    (hkey : ∀ id shelf,
      (after.manifest.state id).key? shelf = (cache.manifest.state id).key? shelf) :
    after.Intact disk := by
  have harchive : after.archive = cache.archive := by
    unfold archive directory
    rw [hroot, hconfig, htool]
  constructor
  · intro id shelf key hnamed
    rw [hkey] at hnamed
    rw [harchive, hconfig]
    exact h.held id shelf key hnamed
  · rw [hroot]
    exact h.whole
  · intro content manifest hcontent hmanifest
    rw [hroot, hconfig] at hcontent
    obtain ⟨hcompatible, hsame⟩ := h.same content manifest hcontent hmanifest
    rw [htool, hconfig]
    exact ⟨hcompatible, fun id shelf => (hsame id shelf).trans (hkey id shelf).symm⟩

section

variable (hcompatible : cache.manifest.isCompatible cache.tool cache.config = true)
  (hasked : cache.Keeps (Record.Asked log) disk) (hunique : KeysUnique log)
  (hfits : ∀ (slot : Slot) (record : Record), cache.memory[slot]? = some record →
    record.Fits cache.tool)

include hcompatible hasked hunique hfits

/-- However many writes of a flush take effect, everything below the root is whole. -/
theorem whole_flush (h : cache.Intact disk) (count : Nat) :
    (Write.runAll (cache.flushWrites.take count) disk).2.Whole cache.root := by
  intro config content manifest hcontent hmanifest
  have hold : disk.content? (cache.root.place ++ [config.hex, "manifest.json"]) = some content →
      (Write.runAll (cache.flushWrites.take count) disk).2.read
          (cache.root.below [config.hex, "manifest.json"]) = .ok content ∧
        manifest.Held (Write.runAll (cache.flushWrites.take count) disk).2
          ⟨cache.root.below [config.hex], manifest.tool⟩ config := by
    intro hbefore
    obtain ⟨hread, hheld⟩ := h.whole config content manifest hbefore hmanifest
    refine ⟨?_, held_flush hasked hunique hfits hheld ?_ count⟩
    · refine Disk.read_mono hread (Write.keeps_runAll _ disk) ?_
      rw [Disk.content?_of_read hread, Path.place_below_manifest]
      exact hcontent
    · rintro rfl
      exact tool_of_isCompatible (h.same content manifest hbefore hmanifest).1
  rcases cache.flush_cases disk count with hmanifests | ⟨written, left, hrun, hsave, hleft⟩
  · exact hold (hmanifests config ▸ hcontent)
  · have hartifacts := cache.content?_artifactWrites (fun write => id) disk config
    rw [hrun] at hartifacts
    rw [hleft] at hcontent
    rcases content?_of_save hsave hcontent with rfl | hwritten
    · -- It is the manifest that was just saved.
      obtain rfl := eq_of_save hsave hcontent hmanifest
      have hheld := held_flushedManifest hasked hunique hfits h.held hrun hleft (by rw [hsave])
      have hload := Manifest.load_of_save hsave
      obtain ⟨found, hread, -⟩ := Manifest.load_eq_some.mp hload
      have hfound := Disk.content?_of_read hread
      rw [place_manifest] at hfound
      obtain rfl := Option.some.inj (hcontent.symm.trans hfound)
      unfold directory at hread
      rw [Manifest.join_fileName] at hread
      rw [hleft, tool_of_isCompatible (compatible_flushedManifest hcompatible)]
      exact ⟨hread, hheld⟩
    · exact hold (hartifacts.symm.trans hwritten)

/-- A flush leaves a cache intact, however far it goes. -/
theorem done (h : cache.Intact disk) :
    (cache.done disk).2.1.Intact (cache.done disk).2.2 := by
  have hall : (Write.runAll (cache.flushWrites.take cache.flushWrites.length) disk).2 =
      (cache.done disk).2.2 := by
    rw [List.take_length, disk_done]
  have hwhole := whole_flush hcompatible hasked hunique hfits h cache.flushWrites.length
  have hheld := held_flush hasked hunique hfits h.held (fun _ => rfl) cache.flushWrites.length
  have hartifacts := cache.content?_artifactWrites (fun write => id) disk cache.config
  rw [hall] at hwhole hheld
  rcases cache.done_cases disk with ⟨-, -, heq⟩ | ⟨-, ⟨error, left, hrun, heq⟩ |
    ⟨error, written, left, hrun, hsave, heq⟩ | ⟨written, left, hrun, hsave, heq⟩⟩
  · rw [heq]
    exact h
  · -- Nothing was changed but artifacts.
    rw [hrun] at hartifacts
    rw [heq] at hwhole hheld ⊢
    refine ⟨hheld, hwhole, fun content manifest hcontent => ?_⟩
    exact h.same content manifest (hartifacts ▸ hcontent)
  · rw [heq] at hwhole hall ⊢
    refine ⟨held_flushedManifest hasked hunique hfits h.held hrun hall (by rw [hsave]), hwhole, ?_⟩
    intro content manifest hcontent hmanifest
    -- A manifest that is there could have been replaced.
    have hwritten : written.content? (cache.root.place ++ [cache.config.hex, "manifest.json"]) =
        some content := by
      unfold Manifest.save at hsave
      exact (Write.content?_run_error hsave _).symm.trans hcontent
    rw [hrun] at hartifacts
    obtain ⟨other, hother⟩ := save_of_whole h.whole hrun (hartifacts.symm.trans hwritten) hmanifest
    rw [hsave] at hother
    cases hother
  · rw [heq] at hwhole hall ⊢
    refine ⟨held_flushedManifest hasked hunique hfits h.held hrun hall (by rw [hsave]), hwhole, ?_⟩
    intro content manifest hcontent hmanifest
    obtain rfl := eq_of_save hsave hcontent hmanifest
    exact ⟨compatible_flushedManifest hcompatible, fun _ _ => rfl⟩

end

/-! ### Collecting -/

/-- Collecting leaves a cache intact. -/
theorem collect (h : cache.Intact disk) (hspelled : disk.Spelled) :
    cache.Intact (cache.collect disk).2 := by
  -- An artifact that some manifest names stays: in another namespace, or as one that is live.
  have hkept : ∀ (config : Digest) (manifest : Manifest) (tool : String),
      (config = cache.config → ∀ id shelf,
        (manifest.state id).key? shelf = (cache.manifest.state id).key? shelf) →
      manifest.Held disk ⟨cache.root.below [config.hex], tool⟩ config →
      manifest.Held (cache.collect disk).2 ⟨cache.root.below [config.hex], tool⟩ config := by
    intro config manifest tool hsame hheld id shelf key hkey
    refine (hheld id shelf key hkey).mono fun raw _ hname hne hread => ?_
    refine (read_collect hspelled fun other name _ hdead hplace => ?_).mpr hread
    rw [place_artifact _ _ _ _ hname] at hplace
    obtain ⟨hconfig, rfl, rfl⟩ := artifact_injective hplace
    rw [hsame hconfig] at hkey
    rw [Archive.isDead_of_mem hne (Manifest.mem_liveKeys hkey)] at hdead
    cases hdead
  refine ⟨hkept cache.config cache.manifest cache.tool (fun _ _ _ => rfl) h.held, ?_, ?_⟩
  · intro config content manifest hcontent hmanifest
    have hbefore := cache.collect_within disk _ _ hcontent
    obtain ⟨hread, hheld⟩ := h.whole config content manifest hbefore hmanifest
    refine ⟨(read_collect hspelled fun shelf name _ _ => ?_).mpr hread, ?_⟩
    · rw [Path.place_below_manifest]
      exact artifact_ne_manifest.symm
    · refine hkept config manifest manifest.tool ?_ hheld
      rintro rfl
      exact (h.same content manifest hbefore hmanifest).2
  · intro content manifest hcontent
    exact h.same content manifest (cache.collect_within disk _ _ hcontent)

end Intact

/-! ### Namespaces that are thrown away or taken over -/

/-- Removing one namespace of a clear root leaves everything below the root whole. -/
lemma whole_prune {root : Path} (h : disk.Whole root) (hclear : root.Clear) (config : Digest) :
    (disk.prune (root.place ++ [config.hex])).Whole root := by
  intro other content manifest hcontent hmanifest
  have hne : other ≠ config := by
    rintro rfl
    have hnone := disk.content?_prune (root.place ++ [other.hex]) ["manifest.json"]
    rw [List.append_assoc] at hnone
    exact absurd (hnone.symm.trans hcontent) (by simp)
  obtain ⟨hread, hheld⟩ :=
    h other content manifest (Disk.prune_within disk _ _ _ hcontent) hmanifest
  refine ⟨Disk.read_prune_namespace hclear hne
    (List.forall_mem_singleton.mpr Manifest.isName_fileName) hread, fun id shelf key hkey => ?_⟩
  refine (hheld id shelf key hkey).mono fun raw _ hname _ hraw => ?_
  exact Disk.read_prune_namespace hclear hne (List.forall_mem_cons.mpr
    ⟨shelf.isName_directory, List.forall_mem_singleton.mpr hname⟩) hraw

/-- Throwing away the active namespace leaves a cache intact. -/
theorem intact_discard (h : disk.Whole cache.root) (hclear : cache.root.Clear) :
    (cache.discard disk).1.Intact (cache.discard disk).2 := by
  have hwhole : (cache.discard disk).2.Whole cache.root := by
    rcases cache.disk_discard disk with heq | ⟨heq, -⟩
    · rw [heq, place_directory]
      exact whole_prune h hclear cache.config
    · rw [heq]
      exact h
  refine ⟨Manifest.held_fresh _ _ _ _ _, hwhole, fun content manifest hcontent hmanifest => ?_⟩
  exact absurd ((hwhole.load_iff cache.config manifest).mpr ⟨content, hcontent, hmanifest⟩)
    (cache.load_discard disk manifest)

/-- Attaching to a namespace leaves a cache intact. -/
theorem intact_attach (h : disk.Whole cache.root) (hclear : cache.root.Clear)
    (hfresh : cache.manifest = .fresh cache.tool cache.config) :
    (cache.attach disk).1.Intact (cache.attach disk).2 := by
  rcases cache.attach_of_load disk with ⟨manifest, hload, hcompatible, heq⟩ |
    ⟨manifest, -, -, heq⟩ | ⟨hnone, heq⟩
  · obtain ⟨content, hcontent, hmanifest⟩ := (h.load_iff cache.config manifest).mp hload
    have hheld := (h cache.config content manifest hcontent hmanifest).2
    rw [Intact.tool_of_isCompatible hcompatible] at hheld
    rw [heq]
    refine ⟨hheld, h, fun found other hfound hother => ?_⟩
    obtain rfl := Option.some.inj (hcontent.symm.trans hfound)
    obtain rfl := Option.some.inj (hmanifest.symm.trans hother)
    exact ⟨hcompatible, fun _ _ => rfl⟩
  · rw [heq]
    exact intact_discard h hclear
  · rw [heq]
    refine ⟨?_, h, fun content manifest hcontent hmanifest => ?_⟩
    · rw [hfresh]
      exact Manifest.held_fresh _ _ _ _ _
    · exact absurd ((h.load_iff cache.config manifest).mpr ⟨content, hcontent, hmanifest⟩)
        (hnone manifest)

/-- Opening a namespace gives an intact cache. -/
lemma intact_openAt {root : Path} (h : disk.Whole root) (hclear : root.Clear) (config : Digest)
    (tool : String) (entries : List ModuleId) :
    (openAt disk root config tool entries).1.Intact (openAt disk root config tool entries).2 :=
  (intact_attach h hclear rfl : ((fresh root config tool entries).attach disk).1.Intact
    ((fresh root config tool entries).attach disk).2)

/-- Going over to another configuration leaves a cache intact. -/
theorem intact_reconfigure (hclear : cache.root.Clear)
    (hdone : (cache.done disk).2.1.Intact (cache.done disk).2.2) (config : Digest) :
    (cache.reconfigure disk config).2.1.Intact (cache.reconfigure disk config).2.2 := by
  by_cases hsame : config = cache.config
  · rw [hsame, reconfigure_self]
    exact hdone
  · rw [reconfigure_eq cache disk hsame]
    dsimp only
    have hroot := (cache.done_frame disk).1
    generalize (cache.done disk).2.1 = after at *
    generalize (cache.done disk).2.2 = left at *
    have hattach : ((after.switch config).attach left).1.Intact
        ((after.switch config).attach left).2 :=
      intact_attach hdone.whole (hroot ▸ hclear) rfl
    have hhears := hears_recordSnapshots ((after.switch config).attach left).1
    exact hattach.frame hhears.root hhears.config hhears.tool hhears.key

end Cache

/-- What others leave below a root is as whole as before. -/
lemma Disk.Leaves.whole {root : Path} {before after : Disk} (h : before.Leaves root after)
    (hwhole : before.Whole root) : after.Whole root := by
  intro config content manifest hcontent hmanifest
  have hmeaning := Bytes.not_meaningless_of_ofContent? hmanifest
  have hold := (h.spares [config.hex, "manifest.json"] content hcontent).resolve_right hmeaning
  obtain ⟨hread, hheld⟩ := hwhole config content manifest hold hmanifest
  refine ⟨(h.reads _ content hmeaning).mpr hread, fun id shelf key hkey => ?_⟩
  refine (hheld id shelf key hkey).mono fun raw hraw _ _ => ?_
  exact (h.reads [config.hex, shelf.directory, key ++ "." ++ Archive.ending] raw hraw).mpr

namespace World

variable {world : World} {root : Path} {first : Disk}

/-- Every call leaves the cache intact. -/
theorem intact_take (hspelled : world.disk.Spelled) (hclear : world.cache.root.Clear)
    (hstands : world.cache.Stands world.disk) (hasked : world.Keeps (Record.Asked world.log))
    (hunique : KeysUnique world.log)
    (hfits : ∀ (slot : Slot) (record : Record), world.cache.memory[slot]? = some record →
      record.Fits world.cache.tool)
    (h : world.cache.Intact world.disk) {call : Call} (hcall : world.Admits call) :
    (world.take call).cache.Intact (world.take call).disk := by
  cases call with
  | reopen config tool entries =>
    simp only [World.take, put]
    exact Cache.intact_openAt h.whole hclear config tool entries
  | submit path text =>
    simp only [World.take]
    have hhears := world.cache.hears_submit (ModuleId.ofPath path) text
    exact h.frame hhears.root hhears.config hhears.tool hhears.key
  | addImport edge =>
    simp only [World.take, Cache.addImport]
    split_ifs
    · exact h
    · exact h.frame rfl rfl rfl fun _ _ => rfl
  | ask part snapshot value =>
    simp only [World.take]
    obtain ⟨memory, pending, heq⟩ := world.cache_ask part snapshot value
    have hhears := world.cache.hears_observe world.disk snapshot.id
    rw [heq]
    exact h.frame hhears.root hhears.config hhears.tool hhears.key
  | done =>
    simp only [World.take, put]
    exact h.done hstands.compatible hasked hunique hfits
  | collect =>
    simp only [World.take]
    exact h.collect hspelled
  | clean =>
    simp only [World.take, put, Cache.clean]
    exact (Cache.intact_discard h.whole hclear).frame rfl rfl rfl fun _ _ => rfl
  | reconfigure config =>
    simp only [World.take, put]
    exact Cache.intact_reconfigure hclear (h.done hstands.compatible hasked hunique hfits) config
  | edit disk =>
    simp only [World.take]
    have hleaves : world.disk.Leaves world.cache.root disk := hcall
    refine ⟨fun id shelf key hkey => ?_, hleaves.whole h.whole, ?_⟩
    · refine (h.held id shelf key hkey).mono fun raw hraw _ _ => ?_
      exact (hleaves.read_artifact shelf key hraw).mpr
    · intro content manifest hcontent hmanifest
      exact h.same content manifest ((hleaves.spares _ content hcontent).resolve_right
        (Bytes.not_meaningless_of_ofContent? hmanifest)) hmanifest

/-- Where the root is left alone, keys are unique and records fit, the cache is intact. -/
theorem Alone.intact (h : Alone root first world) (hbare : first.IsBare root.place)
    (hfirst : first.Spelled) (hclear : root.Clear) (hunique : KeysUnique world.log)
    (hfitting : Fitting world.log) : world.cache.Intact world.disk := by
  induction h with
  | start config tool entries =>
    simp only [World.start]
    refine Cache.intact_openAt (fun config content manifest hcontent => ?_) hclear _ _ _
    rw [hbare] at hcontent
    cases hcontent
  | @take world h call hcall ih =>
    obtain ⟨later, hlog⟩ := world.log_prefix_take call
    rw [hlog] at hunique hfitting
    have hbefore := hunique.of_append
    have hroot : world.cache.root.Clear := h.root_eq ▸ hclear
    exact intact_take (h.spelled hfirst) hroot (h.stands hfirst) (h.reachable hbare).asked hbefore
      (h.fits hbare hfirst hbefore hfitting.of_append) (ih hbefore hfitting.of_append) hcall

end World

end Recompile
