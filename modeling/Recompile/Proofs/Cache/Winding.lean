import Recompile.Proofs.Cache.Collecting
import Recompile.Proofs.Cache.Intact
import Recompile.Proofs.Cache.Retry
import Recompile.Proofs.Storage.Reaching

/-!
# Roots that are reached through a namespace

A path may go into a directory and come back (`Path.not_avoids_back`).  If the root of a cache is
reached through one of its own namespaces and that namespace is thrown away, nothing below the root
is reached any more (`Disk.not_leads_prune`).  A cache that goes over to another configuration,
throws away its namespace and comes back finds no manifest then, and has forgotten everything but
the texts (`World.forgets_on_the_way`).

A cache without results computes what it is asked for first and keeps it
(`World.ask_of_none`), and the next flush stores it if the directory for it is there
(`Cache.Laden.done`).
-/

namespace Recompile

/-! ### Paths that go into a directory and come back -/

namespace Path

variable {name : String}

/-- Such a path has two pieces. -/
lemma pieces_back (hname : IsName name) :
    (Path.mk (name ++ "/..")).pieces = [name, ".."] ∧
      (Path.mk (name ++ "/..")).isAbsolute = false := by
  have hback : ("/.." : String).toList = '/' :: "..".toList := by decide
  have hchars : (Path.mk (name ++ "/..")).text.toList = name.toList ++ '/' :: "..".toList := by
    rw [String.toList_append, hback]
  have habs : (Path.mk (name ++ "/..")).isAbsolute = false := by
    unfold isAbsolute
    rw [decide_eq_false_iff_not, hchars]
    cases htext : name.toList with
    | nil =>
      have hidle := hname.not_idle
      rw [String.toList_eq_nil_iff.mp htext] at hidle
      exact absurd hidle (by decide)
    | cons c rest =>
      rintro hhead
      have hc : c = '/' := Option.some.inj hhead
      exact hname.no_slash (by rw [htext, hc]; exact List.mem_cons_self)
  have hup : split ("..".toList) = [".."] := by decide
  refine ⟨?_, habs⟩
  rw [pieces_eq_split, habs, if_neg Bool.false_ne_true, hchars, split_append_slash,
    split_name hname, hup]
  rfl

/-- It leads where it starts, and passes through the directory. -/
lemma not_avoids_back (hname : IsName name) : ¬ (Path.mk (name ++ "/..")).Avoids name := by
  obtain ⟨hpieces, habs⟩ := pieces_back hname
  have hdown : follow Disk.current name = Disk.current ++ [name] := by
    rw [follow, hname.not_idle, if_neg Bool.false_ne_true, if_neg hname.not_up]
  have hplace : (Path.mk (name ++ "/..")).place = Disk.current := by
    unfold place
    rw [hpieces, habs, if_neg Bool.false_ne_true, List.foldl_cons, hdown]
    rfl
  intro havoids
  refine havoids (Disk.current ++ [name]) ⟨[name], [".."], hpieces, List.cons_ne_nil _ _, ?_⟩ ?_
  · rw [habs, if_neg Bool.false_ne_true]
    exact hdown
  · rw [hplace]

end Path

/-- Without a directory on the way to the root nothing below the root is reached. -/
lemma Disk.not_leads_prune {root : Path} {config : Digest} (h : ¬ root.Avoids config.hex)
    (disk : Disk) {name : String} (hname : Path.IsName name) :
    ¬ (disk.prune (root.place ++ [config.hex])).Leads (root.join ⟨name⟩) := by
  intro hleads
  refine h fun location hpasses hprefix => ?_
  have hdirectory := hleads.directory (hpasses.join hname)
  -- The location is neither the root nor the current directory, since an entry is above it.
  have hlisted : ¬ (location = [] ∨ location = current) := by
    obtain ⟨rest, rfl⟩ := hprefix
    rintro (hnil | hcurrent)
    · exact absurd hnil (by simp)
    · have hmem : config.hex ∈ current := by
        rw [← hcurrent]
        simp
      have hempty := List.mem_singleton.mp hmem
      have hidle := config.isName_hex.not_idle
      rw [hempty] at hidle
      exact absurd hidle (by decide)
  rw [node?_prune, if_neg hlisted, if_pos hprefix] at hdirectory
  cases hdirectory

/-- So no manifest is loaded there. -/
lemma Manifest.not_load_prune {root : Path} {config : Digest} (h : ¬ root.Avoids config.hex)
    (disk : Disk) (other : Digest) (manifest : Manifest) :
    Manifest.load (disk.prune (root.place ++ [config.hex])) (root.join ⟨other.hex⟩) ≠
      .ok (some manifest) := by
  intro hload
  obtain ⟨content, hread, -⟩ := Manifest.load_eq_some.mp hload
  have hopens := ((Disk.leads_join Manifest.isName_fileName
    (root.join_ne_empty other.isName_hex)).mp (Disk.read_eq_ok.mp hread).1).2.2
  exact disk.not_leads_prune h other.isName_hex hopens.1

/-! ### Paths in a namespace whose directories are there -/

namespace Disk.Opens

variable {disk : Disk} {root : Path} {config : Digest} {shelf : Shelf}

/-- The path of a namespace is not much longer than that of the root. -/
lemma utf8ByteSize_namespace_le (root : Path) (config : Digest) :
    (root.join ⟨config.hex⟩).text.utf8ByteSize ≤ root.text.utf8ByteSize + 33 := by
  have hjoin := root.utf8ByteSize_join_le ⟨config.hex⟩
  simp only [(Archive.isKey_hex config).utf8ByteSize_eq] at hjoin
  exact hjoin

/-- The manifest can be reached. -/
lemma leads_manifest (h : disk.Opens (root.join ⟨config.hex⟩))
    (hfits : root.text.utf8ByteSize + 82 < maxPath) :
    disk.Leads ((root.join ⟨config.hex⟩).join Manifest.fileName) := by
  have hnamespace := utf8ByteSize_namespace_le root config
  have hjoin := (root.join ⟨config.hex⟩).utf8ByteSize_join_le ⟨"manifest.json"⟩
  have hname : ("manifest.json" : String).utf8ByteSize = 13 := by decide
  simp only [hname] at hjoin
  exact h.leads_join Manifest.isName_fileName (by decide) (by decide)
    (show ((root.join ⟨config.hex⟩).join ⟨"manifest.json"⟩).text.utf8ByteSize < _ by omega)

/-- So can the shelves. -/
lemma leads_shelf (h : disk.Opens (root.join ⟨config.hex⟩))
    (hfits : root.text.utf8ByteSize + 82 < maxPath) (shelf : Shelf) :
    disk.Leads ((root.join ⟨config.hex⟩).join ⟨shelf.directory⟩) := by
  have hnamespace := utf8ByteSize_namespace_le root config
  obtain ⟨hnull, hsize⟩ := Archive.plain_directory shelf
  have hjoin := (root.join ⟨config.hex⟩).utf8ByteSize_join_le ⟨shelf.directory⟩
  simp only at hjoin
  exact h.leads_join shelf.isName_directory hnull (by unfold maxName; omega) (by omega)

/-- And so can the artifacts on a shelf. -/
lemma leads_artifact {key : String}
    (h : disk.Opens ((root.join ⟨config.hex⟩).join ⟨shelf.directory⟩))
    (hfits : root.text.utf8ByteSize + 82 < maxPath) (hkey : Archive.IsKey key) :
    disk.Leads (((root.join ⟨config.hex⟩).join ⟨shelf.directory⟩).join
      ⟨key ++ "." ++ Archive.ending⟩) := by
  have hnamespace := utf8ByteSize_namespace_le root config
  obtain ⟨-, hsize⟩ := Archive.plain_directory shelf
  have hshelf := (root.join ⟨config.hex⟩).utf8ByteSize_join_le ⟨shelf.directory⟩
  have hjoin := ((root.join ⟨config.hex⟩).join ⟨shelf.directory⟩).utf8ByteSize_join_le
    ⟨key ++ "." ++ Archive.ending⟩
  simp only [hkey.utf8ByteSize_file] at hshelf hjoin
  exact h.leads_join hkey.isName hkey.no_null hkey.short (by omega)

end Disk.Opens

namespace Cache

variable {cache : Cache} {disk : Disk}

/-! ### Flushes of one record -/

/-- A flush keeps all directories. -/
lemma keeps_done (cache : Cache) (disk : Disk) : disk.KeepsDirectories (cache.done disk).2.2 := by
  rw [disk_done]
  exact Write.keeps_runAll cache.flushWrites disk

/-- Where there is a pending record something is pending. -/
lemma pending_of_records {entry : Slot × Record} (h : cache.pendingRecords = [entry]) :
    ¬ cache.pending.isEmpty = true := by
  intro hempty
  have hmem : entry ∈ cache.pendingRecords := h ▸ List.mem_singleton_self _
  have hpending := (mem_pendingRecords.mp hmem).1
  rw [Std.ExtTreeSet.isEmpty_iff.mp hempty] at hpending
  exact Std.ExtTreeSet.not_mem_empty hpending

/-- An artifact is in the directory of its shelf. -/
lemma directory_artifactWrite (cache : Cache) (slot : Slot) (record : Record) :
    (cache.artifactWrite (slot, record)).directory =
      cache.directory.join ⟨slot.shelf.directory⟩ := by
  unfold Write.directory
  rw [path_artifactWrite, Archive.pathOf, Path.parent?_join_join _ slot.shelf.isName_directory
    (record.isName_key cache.config)]
  rfl

/-- Where there is one pending record, a flush writes its artifact and the manifest. -/
lemma flushWrites_of_records {entry : Slot × Record} (h : cache.pendingRecords = [entry]) :
    cache.flushWrites =
      [cache.artifactWrite entry, cache.flushedManifest.saving cache.directory] := by
  unfold flushWrites artifactWrites
  rw [h, Bool.eq_false_iff.mpr (pending_of_records h)]
  rfl

/-- A cache with one record to store, and the key of the artifact. -/
structure Laden (root : Path) (config : Digest) (tool : String) (slot : Slot) (record : Record)
    (key : String) where
  /-- The cache. -/
  cache : Cache
  /-- It is at this root. -/
  root_eq : cache.root = root
  /-- It has this configuration. -/
  config_eq : cache.config = config
  /-- It is used by this tool. -/
  tool_eq : cache.tool = tool
  /-- This record is pending, and no other one. -/
  records_eq : cache.pendingRecords = [(slot, record)]
  /-- This is the key of the artifact. -/
  key_eq : record.key config = key

namespace Laden

variable {root : Path} {config : Digest} {tool : String} {slot : Slot} {record : Record}
variable {key : String} {location : Location}

/-- The namespace of the cache. -/
lemma directory_eq (laden : Laden root config tool slot record key) :
    laden.cache.directory = root.join ⟨config.hex⟩ := by
  rw [directory, laden.root_eq, laden.config_eq]

/-- The record is stored where the directory of its shelf is there and no directory is in the place
of the artifact or in that of the manifest. -/
theorem done (laden : Laden root config tool slot record key)
    (hlocation : (root.join ⟨config.hex⟩).place = location)
    (hopens : disk.Opens ((root.join ⟨config.hex⟩).join ⟨slot.shelf.directory⟩))
    (hfits : root.text.utf8ByteSize + 82 < Disk.maxPath)
    (hartifact : disk.node? (location ++ [slot.shelf.directory, key ++ "." ++ Archive.ending]) ≠
      some .directory)
    (hmanifest : disk.node? (location ++ ["manifest.json"]) ≠ some .directory) :
    laden.cache.done disk = (.flushed 1,
      { laden.cache with
        manifest := laden.cache.flushedManifest, pending := ∅, dirty := false },
      (disk.insert (location ++ [slot.shelf.directory, key ++ "." ++ Archive.ending])
          (.file (Artifact.encode tool record.toBytes))).insert (location ++ ["manifest.json"])
        (.file (Bytes.ofText laden.cache.flushedManifest.document))) := by
  obtain ⟨cache, rfl, rfl, rfl, hrecords, rfl⟩ := laden
  subst hlocation
  have hdirectory : disk.Opens cache.directory :=
    ((Disk.leads_join slot.shelf.isName_directory cache.directory_ne_empty).mp hopens.1).2.2
  have hwrites := flushWrites_of_records hrecords
  have hplaces : (cache.artifactWrite (slot, record)).path.place = cache.directory.place ++
        [slot.shelf.directory, record.key cache.config ++ "." ++ Archive.ending] ∧
      (cache.flushedManifest.saving cache.directory).path.place =
        cache.directory.place ++ ["manifest.json"] :=
    ⟨place_artifactWrite cache slot record, Path.place_join _ Manifest.isName_fileName⟩
  have hleads : ∀ write ∈ cache.flushWrites, disk.Leads write.path := by
    rw [hwrites, List.forall_mem_cons, List.forall_mem_singleton, path_artifactWrite]
    exact ⟨hopens.leads_artifact hfits (Archive.isKey_hex _), hdirectory.leads_manifest hfits⟩
  have hfree : ∀ write ∈ cache.flushWrites, disk.node? write.path.place ≠ some .directory := by
    rw [hwrites, List.forall_mem_cons, List.forall_mem_singleton, hplaces.1, hplaces.2]
    exact ⟨hartifact, hmanifest⟩
  have hdone := done_eq_flushed disk fun hempty => absurd hempty (pending_of_records hrecords)
  rw [Write.runAll_of_leads cache.filed_flushWrites hleads hfree] at hdone
  dsimp only
  rw [hdone.2 (hdone.1.mpr rfl), hrecords, hwrites]
  simp only [List.foldl_cons, List.foldl_nil, hplaces, content_artifactWrite, List.length_singleton]
  rfl

/-- The directory of the artifact is made first. -/
lemma done_of_made (laden : Laden root config tool slot record key) {made : Disk}
    (hmade : disk.makeDirectories ((root.join ⟨config.hex⟩).join ⟨slot.shelf.directory⟩) =
      (.ok (), made)) : laden.cache.done disk = laden.cache.done made := by
  obtain ⟨cache, rfl, rfl, rfl, hrecords, rfl⟩ := laden
  dsimp only
  have hopens := Disk.opens_of_makeDirectoriesIn hmade
    (Path.join_ne_empty _ slot.shelf.isName_directory)
  have hrun : (cache.artifactWrite (slot, record)).run disk =
      (cache.artifactWrite (slot, record)).run made := by
    unfold Write.run
    rw [directory_artifactWrite, directory, hmade,
      Disk.makeDirectories_of_opens slot.shelf.isName_directory hopens]
  unfold Cache.done artifactWrites
  rw [hrecords, List.map_singleton, Write.runAll_cons, Write.runAll_cons, hrun,
    Bool.eq_false_iff.mpr (pending_of_records hrecords)]
  rfl

/-- The record is not stored if a directory is in the place of the artifact, but the directories on
the way there are made. -/
theorem failed (laden : Laden root config tool slot record key) {goal : Disk}
    (hlocation : (root.join ⟨config.hex⟩).place = location)
    (hfits : root.text.utf8ByteSize + 82 < Disk.maxPath)
    (hopens : goal.Opens ((root.join ⟨config.hex⟩).join ⟨slot.shelf.directory⟩))
    (hway : ∀ passed, goal.node? passed = some .directory → ∀ content,
      disk.node? passed ≠ some (.file content))
    (hplace : disk.node? (location ++ [slot.shelf.directory, key ++ "." ++ Archive.ending]) =
      some .directory) :
    ∃ error made, laden.cache.done disk = (.failed error, laden.cache, made) ∧
      made.Opens ((root.join ⟨config.hex⟩).join ⟨slot.shelf.directory⟩) ∧
      disk.AddsDirectories made fun passed => goal.node? passed = some .directory := by
  obtain ⟨cache, rfl, rfl, rfl, hrecords, rfl⟩ := laden
  subst hlocation
  have hleads := hopens.leads_artifact hfits (Archive.isKey_hex _ : Archive.IsKey
    (record.key cache.config))
  have hwrites : cache.artifactWrites = [cache.artifactWrite (slot, record)] := by
    unfold artifactWrites
    rw [hrecords]
    rfl
  have hpath := path_artifactWrite cache slot record
  have hfiled : (cache.artifactWrite (slot, record)).Filed :=
    ⟨cache.directory, slot.shelf.directory, _, slot.shelf.isName_directory,
      record.isName_key cache.config, hpath⟩
  have hthere : disk.node? (cache.artifactWrite (slot, record)).path.place = some .directory := by
    rw [place_artifactWrite]
    exact hplace
  have hreach : goal.Leads (cache.artifactWrite (slot, record)).path := hpath ▸ hleads
  obtain ⟨error, made, hrun, hmade, hadds⟩ := Write.run_of_directory hfiled hreach
    (fun passed hpasses => hway passed (hreach.directory hpasses)) hthere
  have hall : Write.runAll cache.artifactWrites disk = (.error error, made) := by
    rw [hwrites, Write.runAll_cons, hrun]
  rw [directory_artifactWrite] at hmade
  refine ⟨error, made, ?_, hmade, hadds.mono fun passed hpasses => hreach.directory hpasses⟩
  rcases cache.done_cases disk with ⟨hempty, -⟩ | ⟨-, ⟨error', left, hfailed, heq⟩ |
    ⟨_, _, _, hran, -⟩ | ⟨_, _, hran, -⟩⟩
  · exact absurd hempty (pending_of_records hrecords)
  · obtain ⟨herror, hleft⟩ := Prod.mk.inj (hfailed.symm.trans hall)
    rw [heq, Except.error.inj herror, hleft]
  · cases hran.symm.trans hall
  · cases hran.symm.trans hall

end Laden

/-! ### Artifacts that are collected -/

/-- If all that is listed on the first shelf can be read, then no artifact on it that the manifest
does not name can be read once they were collected. -/
theorem not_read_collect {key : String}
    (hopens : disk.Opens (cache.directory.join ⟨Shelf.code.directory⟩))
    (hfiles : ∀ name node,
      disk.nodes[cache.root.place ++ [cache.config.hex, Shelf.code.directory, name]]? =
        some node → Path.IsName name ∧ ∃ content,
          disk.read ((cache.directory.join ⟨Shelf.code.directory⟩).join ⟨name⟩) = .ok content)
    (hkey : Archive.IsKey key) (hdead : key ∉ cache.manifest.liveKeys .code) :
    (cache.archive.read (cache.collect disk).2 Shelf.code.directory key).isOk = false := by
  have hshelf : ∀ name, (cache.archive.root.join ⟨Shelf.code.directory⟩).place ++ [name] =
      cache.root.place ++ [cache.config.hex, Shelf.code.directory, name] := by
    intro name
    rw [place_shelf, List.append_assoc]
    rfl
  obtain ⟨count, middle, hcollect, hgone⟩ := @Archive.collect_of_read cache.archive _ _ hopens
    (fun name node hnode => hfiles name node (by rwa [hshelf] at hnode))
    (cache.manifest.liveKeys .code)
  have hisDead : Archive.isDead (cache.manifest.liveKeys .code)
      (key ++ "." ++ Archive.ending) = true := by
    rw [Archive.isDead_file hkey.ne_empty, List.contains_eq_mem, decide_eq_false hdead]
    rfl
  cases hread : cache.archive.read (cache.collect disk).2 Shelf.code.directory key with
  | error error => rfl
  | ok payload =>
    obtain ⟨raw, hraw, -⟩ := Archive.read_eq_ok.mp hread
    have hcontent := Disk.content?_of_read hraw
    rw [Archive.place_pathOf _ _ hkey.isName] at hcontent
    -- The first shelf was collected, and nothing came back while the second one was.
    rcases cache.collect_cases disk rfl rfl with ⟨error, herror, -⟩ | ⟨codes, -, heq⟩
    · rw [hcollect] at herror
      cases herror
    · rw [heq] at hcontent
      have hmiddle := Archive.collect_within _ _ _ _ _ _ hcontent
      rw [hcollect, locate_archive, ← hshelf, hgone _ hisDead] at hmiddle
      cases hmiddle

/-! ### Caches that find nothing -/

/-- Where no module is unobserved, and nothing is live or stored, nothing is found. -/
lemma lookup_of_none {part : Part} {snapshot : Snapshot} (hunobserved : cache.unobserved = ∅)
    (hlive : cache.live? (part.slot snapshot.id) snapshot.fingerprint
      (cache.generation snapshot.id) = none)
    (hstored : cache.stored? disk (part.slot snapshot.id) snapshot.fingerprint
      (cache.generation snapshot.id) = none) :
    cache.lookup disk part snapshot = (none, cache) := by
  have hfetch : cache.fetch disk (part.slot snapshot.id) snapshot.fingerprint = (none, cache) := by
    have hid : (part.slot snapshot.id).file = snapshot.id := rfl
    unfold fetch
    simp only [hid, hlive, hstored]
  unfold lookup
  rw [observe_of_empty hunobserved, hfetch]
  rfl

/-- Nothing is in memory, no key is recorded, and no module is unobserved. -/
structure Blank (cache : Cache) : Prop where
  /-- Nothing is in memory. -/
  memory : cache.memory = ∅
  /-- No key is recorded. -/
  key : ∀ id shelf, (cache.manifest.state id).key? shelf = none
  /-- No module is unobserved. -/
  unobserved : cache.unobserved = ∅

/-- What is left of a cache that forgot everything but the texts. -/
def forgotten (cache : Cache) : Cache :=
  { fresh cache.root cache.config cache.tool cache.entries with snapshots := cache.snapshots }

namespace Blank

/-- What is left of a cache that forgot everything but the texts has no results. -/
lemma forgotten (cache : Cache) : cache.forgotten.Blank where
  memory := rfl
  key id shelf := by
    unfold Cache.forgotten fresh
    rw [Manifest.state_fresh]
    cases shelf <;> rfl
  unobserved := rfl

/-- Handing in a text gives no results. -/
lemma submit (h : cache.Blank) (id : ModuleId) (text : String) :
    (cache.submit id text).2.Blank where
  memory := (cache.hears_submit id text).memory.trans h.memory
  key other shelf := ((cache.hears_submit id text).key other shelf).trans (h.key other shelf)
  unobserved := by
    refine Std.ExtTreeSet.ext_mem fun other => ⟨fun hother => ?_, fun hother => ?_⟩
    · have hbefore := (mem_unobserved_submit.mp hother).2
      rwa [h.unobserved] at hbefore
    · exact absurd hother Std.ExtTreeSet.not_mem_empty

/-- Comparing the texts gives no results. -/
lemma recordSnapshots (h : cache.Blank) : cache.recordSnapshots.Blank where
  memory := cache.hears_recordSnapshots.memory.trans h.memory
  key other shelf := (cache.hears_recordSnapshots.key other shelf).trans (h.key other shelf)
  unobserved := cache.recordSnapshots_frame.2.trans h.unobserved

/-- Without results nothing is found. -/
lemma lookup (h : cache.Blank) (disk : Disk) (part : Part) (snapshot : Snapshot) :
    cache.lookup disk part snapshot = (none, cache) := by
  refine lookup_of_none h.unobserved ?_ ?_
  · unfold live?
    rw [h.memory, Std.ExtTreeMap.getElem?_empty]
    rfl
  · unfold stored?
    simp only [h.key, reduceCtorEq, if_false]

end Blank

/-- After a flush a cache goes over to another configuration as it would have gone before. -/
lemma switch_done (cache : Cache) (disk : Disk) (config : Digest) :
    (cache.done disk).2.1.switch config = cache.switch config := by
  rcases cache.done_cases disk with ⟨-, -, heq⟩ | ⟨-, ⟨error, left, -, heq⟩ |
    ⟨error, written, left, -, -, heq⟩ | ⟨written, left, -, -, heq⟩⟩ <;> rw [heq] <;> rfl

/-- Where nothing has changed a flush does nothing. -/
lemma done_of_clean (hpending : cache.pending = ∅) (hdirty : cache.dirty = false) :
    cache.done disk = (.clean, cache, disk) := by
  unfold done
  rw [hpending, hdirty, Std.ExtTreeSet.isEmpty_empty]
  rfl

/-- Where no manifest is loaded a cache that goes over to another configuration takes over nothing
of it. -/
lemma reconfigure_of_not_load {config : Digest} (hne : config ≠ cache.config)
    (hload : ∀ manifest, Manifest.load (cache.done disk).2.2 (cache.root.join ⟨config.hex⟩) ≠
      .ok (some manifest)) :
    cache.reconfigure disk config =
      ((cache.done disk).1, (cache.switch config).recordSnapshots, (cache.done disk).2.2) := by
  rw [reconfigure_eq _ _ hne, switch_done]
  have hattach : (cache.switch config).attach (cache.done disk).2.2 =
      (cache.switch config, (cache.done disk).2.2) := attach_of_not_load hload
  rw [hattach]

/-- Throwing everything away removes the directory of the namespace, if it is there. -/
lemma disk_clean_of_opens (h : disk.Opens cache.directory) :
    (cache.clean disk).2 = disk.prune (cache.root.place ++ [cache.config.hex]) := by
  unfold clean discard
  rw [Disk.removeTree_of_opens h, place_directory]

end Cache

namespace World

variable {world : World} {root : Path} {first : Disk}

/-- A flush that comes to this leads here. -/
lemma take_done {outcome : FlushOutcome} {cache : Cache} {disk : Disk}
    (h : world.cache.done world.disk = (outcome, cache, disk)) :
    world.take .done = ⟨cache, disk, world.log, world.texts⟩ := by
  simp only [World.take, put, h]

/-- What is given was computed if it was not found. -/
lemma computed_given (world : World) (part : Part) (snapshot : Snapshot) (value : part.Value) :
    (world.given part snapshot value).2.2 =
      (world.cache.lookup world.disk part snapshot).1.isNone := by
  unfold given Cache.answer
  cases hlookup : world.cache.lookup world.disk part snapshot with
  | mk found cache => cases found <;> rfl

/-- What is not found is computed and kept. -/
theorem ask_of_none {part : Part} {snapshot : Snapshot}
    (h : world.cache.lookup world.disk part snapshot = (none, world.cache)) (value : part.Value) :
    world.given part snapshot value =
        (value, world.cache.keep part snapshot value, true) ∧
      world.ask part snapshot value =
        { world with
          cache := world.cache.keep part snapshot value
          log := world.log ++
            [⟨answerOf (world.cache.keep part snapshot value) part snapshot value, true⟩]
          texts := world.texts + (world.cache.graph.reachable [snapshot.id]).length } := by
  have hgiven : world.given part snapshot value =
      (value, world.cache.keep part snapshot value, true) := by
    unfold given Cache.answer
    rw [h]
  refine ⟨hgiven, ?_⟩
  unfold ask
  rw [hgiven]

/-- On an empty root a process starts with nothing. -/
lemma start_of_bare (h : first.IsBare root.place) (config : Digest) (tool : String)
    (entries : List ModuleId) :
    start first root config tool entries =
      ⟨Cache.fresh root config tool entries, first, [], 0⟩ := by
  have hopen : Cache.openAt first root config tool entries =
      (Cache.fresh root config tool entries, first) := by
    refine Cache.openAt_of_not_load (fun manifest hload => ?_) tool entries
    obtain ⟨content, hcontent, -⟩ := Manifest.content?_of_load hload
    rw [Manifest.join_fileName, Path.place_below_manifest, h] at hcontent
    cases hcontent
  unfold start
  rw [hopen]

/-- The first answer on an empty root is computed. -/
theorem first_answer (h : first.IsBare root.place) (config : Digest) (tool : String)
    (entries : List ModuleId) (path text : String) (part : Part) (snapshot : Snapshot)
    (value : part.Value) :
    ∃ (cache : Cache) (texts : Nat),
      cache = ((Cache.fresh root config tool entries).submit (ModuleId.ofPath path) text).2.keep
        part snapshot value ∧
      (start first root config tool entries).run
          [.submit path text, .ask part snapshot value] =
        ⟨cache, first, [⟨answerOf cache part snapshot value, true⟩], texts⟩ := by
  have hfresh : (Cache.fresh root config tool entries).Blank :=
    .forgotten (.fresh root config tool entries)
  have hblank := hfresh.submit (ModuleId.ofPath path) text
  obtain ⟨-, hask⟩ := @ask_of_none ⟨_, first, [], 1⟩ _ _ (hblank.lookup first part snapshot) value
  rw [start_of_bare h]
  exact ⟨_, _, rfl, hask⟩

/-! ### Away and back -/

/-- A cache that is reached through the namespace of another configuration, goes over to that
configuration, throws everything away and comes back has forgotten everything but the texts. -/
theorem forgets_on_the_way {other : Digest} (hne : other ≠ world.cache.config)
    (hway : ¬ world.cache.root.Avoids other.hex)
    (hnone : world.disk.content? (world.cache.root.place ++ [other.hex, "manifest.json"]) = none)
    (hopens : world.disk.Opens (world.cache.root.join ⟨other.hex⟩)) :
    ∃ texts, world.run [.reconfigure other, .clean, .reconfigure world.cache.config] =
      ⟨world.cache.forgotten.recordSnapshots,
        (world.cache.done world.disk).2.2.prune (world.cache.root.place ++ [other.hex]),
        world.log, texts⟩ := by
  have hload : ∀ manifest, Manifest.load (world.cache.done world.disk).2.2
      (world.cache.root.join ⟨other.hex⟩) ≠ .ok (some manifest) := by
    intro manifest hload
    obtain ⟨content, hcontent, -⟩ := Manifest.content?_of_load hload
    rw [Manifest.join_fileName, Path.place_below_manifest] at hcontent
    rcases world.cache.manifest_of_done world.disk other hcontent with hold | ⟨hsame, -⟩
    · rw [hnone] at hold
      cases hold
    · exact hne hsame
  have hgo := Cache.reconfigure_of_not_load hne hload
  have hstill := hopens.mono (world.cache.keeps_done world.disk)
  obtain ⟨manifest, dirty, haway⟩ := (world.cache.switch other).recordSnapshots_eq
  generalize (world.cache.done world.disk).2.2 = left at *
  generalize (world.cache.switch other).recordSnapshots = away at *
  have hpruned : (away.clean left).2 = left.prune (world.cache.root.place ++ [other.hex]) := by
    rw [haway]
    exact Cache.disk_clean_of_opens hstill
  have hback : (away.clean left).1.reconfigure (away.clean left).2 world.cache.config =
      (.clean, world.cache.forgotten.recordSnapshots, (away.clean left).2) := by
    have hdone : (away.clean left).1.done (away.clean left).2 = (.clean, away.clean left) :=
      Cache.done_of_clean rfl rfl
    have hforgotten : (away.clean left).1.switch world.cache.config = world.cache.forgotten := by
      rw [haway]
      rfl
    have hconfig : world.cache.config ≠ (away.clean left).1.config := by
      rw [haway]
      exact hne.symm
    have hroot : (away.clean left).1.root = world.cache.root := by
      rw [haway]
      rfl
    rw [Cache.reconfigure_of_not_load hconfig, hdone, hforgotten]
    rw [hdone, hroot, hpruned]
    exact Manifest.not_load_prune hway left world.cache.config
  rw [← hpruned]
  simp only [World.run, List.foldl_cons, List.foldl_nil, World.take, put, hgo, hback]
  exact ⟨_, rfl⟩

end World

end Recompile
