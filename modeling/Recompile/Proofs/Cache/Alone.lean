import Recompile.Proofs.Cache.Fresh
import Recompile.Proofs.Storage.Reading

/-!
# Cache roots that nobody else touches

What is stored below a cache root survives only as long as others leave it there. `World.Alone` are
the worlds that calls lead to if others, whatever they do elsewhere on the disk, leave the root
alone (`Disk.Leaves`): what can be read there of some meaning stays, and what they put there is
meaningless, such as the sources of a project whose cache root is its own directory.

What each operation of a cache leaves readable is described here: a flush is taken apart by how far
it came (`Cache.done_cases`), attaching by what is loaded (`Cache.attach_of_load`), and collecting
leaves everything but dead artifacts (`Cache.read_collect`).
-/

namespace Recompile

/-! ### Contents with a meaning -/

/-- The content of an artifact means something. -/
lemma Bytes.not_meaningless_of_payload {tool : String} {content payload : Bytes}
    (h : Artifact.payload tool content = .ok payload) : ¬ content.Meaningless :=
  fun hmeaningless => hmeaningless.artifact tool payload h

/-- The content of a manifest means something. -/
lemma Bytes.not_meaningless_of_ofContent? {content : Bytes} {manifest : Manifest}
    (h : Manifest.ofContent? content = some manifest) : ¬ content.Meaningless := by
  intro hmeaningless
  rw [hmeaningless.manifest] at h
  cases h

/-- Where several names lead, one after the other. -/
def Path.below (root : Path) (names : List String) : Path :=
  names.foldl (fun path name => path.join ⟨name⟩) root

/-- Where the file of the manifest of a configuration is. -/
lemma Manifest.join_fileName (root : Path) (config : Digest) :
    (root.join ⟨config.hex⟩).join fileName = root.below [config.hex, "manifest.json"] := by
  unfold fileName Path.below
  rw [List.foldl_cons, List.foldl_cons, List.foldl_nil]

/-- Where an artifact of the active namespace is. -/
lemma Cache.pathOf_archive (cache : Cache) (shelf : Shelf) (key : String) :
    cache.archive.pathOf shelf.directory key =
      cache.root.below [cache.config.hex, shelf.directory, key ++ "." ++ Archive.ending] := by
  unfold archive directory Archive.pathOf Path.below
  rw [List.foldl_cons, List.foldl_cons, List.foldl_cons, List.foldl_nil]

/-- Others leave what is below a root: what they put there is meaningless, and what can be read
there of some meaning is what could be read before. -/
structure Disk.Leaves (root : Path) (before after : Disk) : Prop where
  /-- What is listed has a name. -/
  spelled : after.Spelled
  /-- What is new is meaningless. -/
  spares : before.Spares root.place after
  /-- What can be read stays. -/
  reads : ∀ (names : List String) (content : Bytes), ¬ content.Meaningless →
    (after.read (root.below names) = .ok content ↔ before.read (root.below names) = .ok content)

/-! ### Manifests -/

namespace Manifest

/-- The name of the file of a manifest. -/
lemma isName_fileName : Path.IsName "manifest.json" := by
  refine Path.isName_of_chars ?_ ⟨'m', by decide, by decide⟩
  rintro c hc rfl
  exact absurd hc (by decide)

/-- A manifest is loaded if its file can be read. -/
lemma load_eq_some {disk : Disk} {directory : Path} {manifest : Manifest} :
    load disk directory = .ok (some manifest) ↔
      ∃ content, disk.read (directory.join fileName) = .ok content ∧
        ofContent? content = some manifest := by
  unfold load Disk.readText ofContent?
  simp only [bind, Except.bind]
  cases disk.read (directory.join fileName) with
  | error fault =>
    simp only [reduceCtorEq, false_and, exists_false, iff_false]
    split_ifs <;> simp
  | ok content =>
    simp only [Except.ok.injEq, exists_eq_left']
    cases Bytes.text? content with
    | none =>
      simp only [throw, throwThe, MonadExceptOf.throw, Option.bind_none, reduceCtorEq, iff_false]
      split_ifs <;> simp
    | some text =>
      simp only [pure, Except.pure, Option.bind_some]
      cases ofDocument? text <;> simp

/-- The manifest that a process takes over in a directory: the one that is there, or a new one. -/
def standing (disk : Disk) (directory : Path) (tool : String) (config : Digest) : Manifest :=
  match load disk directory with
  | .ok (some manifest) => manifest
  | _ => .fresh tool config

/-- A manifest that is loaded is the standing one. -/
lemma standing_of_load {disk : Disk} {directory : Path} {manifest : Manifest}
    (h : load disk directory = .ok (some manifest)) (tool : String) (config : Digest) :
    standing disk directory tool config = manifest := by
  unfold standing
  rw [h]

/-- Where no manifest is loaded, a new one is the standing one. -/
lemma standing_of_not_load {disk : Disk} {directory : Path}
    (h : ∀ manifest, load disk directory ≠ .ok (some manifest)) (tool : String) (config : Digest) :
    standing disk directory tool config = .fresh tool config := by
  unfold standing
  split
  · rename_i manifest hload
    exact absurd hload (h manifest)
  · rfl

/-- The standing manifest depends on the manifest that is loaded alone. -/
lemma standing_congr {disk other : Disk} {directory : Path}
    (h : ∀ manifest, load other directory = .ok (some manifest) ↔
      load disk directory = .ok (some manifest)) (tool : String) (config : Digest) :
    standing other directory tool config = standing disk directory tool config := by
  by_cases hload : ∃ manifest, load disk directory = .ok (some manifest)
  · obtain ⟨manifest, hmanifest⟩ := hload
    rw [standing_of_load hmanifest, standing_of_load ((h manifest).mpr hmanifest)]
  · have hnone : ∀ manifest, load disk directory ≠ .ok (some manifest) :=
      fun manifest hmanifest => hload ⟨manifest, hmanifest⟩
    rw [standing_of_not_load hnone,
      standing_of_not_load fun manifest hmanifest => hnone manifest ((h manifest).mp hmanifest)]

/-- Reading the same from the file of a manifest loads the same manifest. -/
lemma load_congr {disk other : Disk} {directory : Path}
    (h : ∀ content, ¬ content.Meaningless → (other.read (directory.join fileName) = .ok content ↔
      disk.read (directory.join fileName) = .ok content)) (manifest : Manifest) :
    load other directory = .ok (some manifest) ↔ load disk directory = .ok (some manifest) := by
  rw [load_eq_some, load_eq_some]
  refine exists_congr fun content => and_congr_left fun hcontent => ?_
  exact h content (Bytes.not_meaningless_of_ofContent? hcontent)

end Manifest

/-- Others that leave a root alone leave the manifests that are loaded. -/
lemma Disk.Leaves.load_iff {root : Path} {before after : Disk} (h : before.Leaves root after)
    (config : Digest) (manifest : Manifest) :
    Manifest.load after (root.join ⟨config.hex⟩) = .ok (some manifest) ↔
      Manifest.load before (root.join ⟨config.hex⟩) = .ok (some manifest) := by
  refine Manifest.load_congr (fun content => ?_) manifest
  rw [Manifest.join_fileName]
  exact h.reads _ content

/-! ### Operations of a cache -/

namespace Cache

variable {cache : Cache} {disk : Disk}

/-- A flush has nothing to do, or it fails at an artifact or at the manifest, or everything is
stored. -/
lemma done_cases (cache : Cache) (disk : Disk) :
    (cache.pending.isEmpty = true ∧ cache.dirty = false ∧
        cache.done disk = (.clean, cache, disk)) ∨
      ((cache.pending.isEmpty = true → cache.dirty = true) ∧
        ((∃ error left, Write.runAll cache.artifactWrites disk = (.error error, left) ∧
            cache.done disk = (.failed error, cache, left)) ∨
          (∃ error written left, Write.runAll cache.artifactWrites disk = (.ok (), written) ∧
            cache.flushedManifest.save written cache.directory = (.error error, left) ∧
            cache.done disk =
              (.failed error, { cache with manifest := cache.flushedManifest }, left)) ∨
          ∃ written left, Write.runAll cache.artifactWrites disk = (.ok (), written) ∧
            cache.flushedManifest.save written cache.directory = (.ok (), left) ∧
            cache.done disk = (.flushed cache.pendingRecords.length,
              { cache with manifest := cache.flushedManifest, pending := ∅, dirty := false },
              left))) := by
  unfold done
  split_ifs with hnothing
  · rw [Bool.and_eq_true, Bool.not_eq_true'] at hnothing
    exact .inl ⟨hnothing.1, hnothing.2, rfl⟩
  · rw [Bool.and_eq_true, Bool.not_eq_true', not_and, Bool.not_eq_false] at hnothing
    refine .inr ⟨hnothing, ?_⟩
    cases hrun : Write.runAll cache.artifactWrites disk with
    | mk result written =>
      cases result with
      | error error => exact .inl ⟨error, written, rfl, rfl⟩
      | ok done =>
        refine .inr ?_
        cases hsave : cache.flushedManifest.save written cache.directory with
        | mk saved left =>
          cases saved with
          | error error => exact .inl ⟨error, written, left, rfl, hsave, by simp only [hsave]⟩
          | ok done => exact .inr ⟨written, left, rfl, hsave, by simp only [hsave]⟩

/-- What attaching does with a manifest that is loaded, and without one. -/
lemma attach_of_load (cache : Cache) (disk : Disk) :
    (∃ manifest, Manifest.load disk cache.directory = .ok (some manifest) ∧
        manifest.isCompatible cache.tool cache.config = true ∧
        cache.attach disk =
          ({ cache with
              graph := cache.graph.insertAll manifest.edges
              unobserved := unseen cache.snapshots manifest
              manifest }, disk)) ∨
      (∃ manifest, Manifest.load disk cache.directory = .ok (some manifest) ∧
        manifest.isCompatible cache.tool cache.config = false ∧
        cache.attach disk = cache.discard disk) ∨
      (∀ manifest, Manifest.load disk cache.directory ≠ .ok (some manifest)) ∧
        cache.attach disk = (cache, disk) := by
  unfold attach
  split
  · rename_i manifest hload
    split_ifs with hcompatible
    · exact .inl ⟨manifest, hload, hcompatible, rfl⟩
    · exact .inr (.inl ⟨manifest, hload, Bool.eq_false_iff.mpr hcompatible, rfl⟩)
  · rename_i hload
    refine .inr (.inr ⟨fun manifest hsome => ?_, rfl⟩)
    rw [hload] at hsome
    cases hsome
  · rename_i error hload
    refine .inr (.inr ⟨fun manifest hsome => ?_, rfl⟩)
    rw [hload] at hsome
    cases hsome

/-- Where no manifest is loaded, attaching changes nothing. -/
lemma attach_of_not_load
    (h : ∀ manifest, Manifest.load disk cache.directory ≠ .ok (some manifest)) :
    cache.attach disk = (cache, disk) := by
  rcases cache.attach_of_load disk with ⟨manifest, hload, -⟩ | ⟨manifest, hload, -⟩ | ⟨-, heq⟩
  · exact absurd hload (h manifest)
  · exact absurd hload (h manifest)
  · exact heq

/-- Where no manifest is loaded, a cache that is opened knows nothing. -/
lemma openAt_of_not_load {root : Path} {config : Digest}
    (h : ∀ manifest, Manifest.load disk (root.join ⟨config.hex⟩) ≠ .ok (some manifest))
    (tool : String) (entries : List ModuleId) :
    openAt disk root config tool entries = (fresh root config tool entries, disk) :=
  attach_of_not_load h

/-- A cache is opened at its root. -/
lemma root_openAt (disk : Disk) (root : Path) (config : Digest) (tool : String)
    (entries : List ModuleId) : (openAt disk root config tool entries).1.root = root := by
  unfold openAt
  exact ((fresh root config tool entries).attach_frame disk).1

/-- The path of the active namespace is not empty. -/
lemma directory_ne_empty (cache : Cache) : cache.directory.text ≠ "" :=
  cache.root.join_ne_empty cache.config.isName_hex

/-- A file that is read in the active namespace is in its directory. -/
lemma opens_directory {name : String} {content : Bytes} (hname : Path.IsName name)
    (h : disk.read (cache.directory.join ⟨name⟩) = .ok content) : disk.Opens cache.directory :=
  ((Disk.leads_join hname cache.directory_ne_empty).mp (Disk.read_eq_ok.mp h).1).2.2

/-- Throwing away removes the directory of the namespace, or there is none. -/
lemma disk_discard (cache : Cache) (disk : Disk) :
    (cache.discard disk).2 = disk.prune cache.directory.place ∨
      (cache.discard disk).2 = disk ∧ ¬ disk.Opens cache.directory := by
  unfold discard
  simp only
  split
  · rename_i removed hremoved
    exact .inl (Disk.eq_prune_of_removeTree hremoved)
  · rename_i fault hfault
    refine .inr ⟨rfl, fun hopens => ?_⟩
    rw [Disk.removeTree_of_opens hopens] at hfault
    cases hfault

/-- After everything was thrown away no manifest is loaded. -/
lemma load_discard (cache : Cache) (disk : Disk) (manifest : Manifest) :
    Manifest.load (cache.discard disk).2 cache.directory ≠ .ok (some manifest) := by
  intro hload
  obtain ⟨content, hread, -⟩ := Manifest.load_eq_some.mp hload
  rcases cache.disk_discard disk with heq | ⟨heq, hopens⟩
  · have hcontent := Disk.content?_of_read hread
    rw [heq, Manifest.fileName, Path.place_join _ Manifest.isName_fileName,
      Disk.content?_prune] at hcontent
    cases hcontent
  · rw [heq] at hread
    exact hopens (opens_directory Manifest.isName_fileName hread)

/-- Collecting leaves what is read anywhere but at a dead artifact. -/
theorem read_collect (hspelled : disk.Spelled) {path : Path} {content : Bytes}
    (hplace : ∀ (shelf : Shelf) (name : String), Path.IsName name →
      Archive.isDead (cache.manifest.liveKeys shelf) name = true →
      path.place ≠ cache.root.place ++ [cache.config.hex, shelf.directory, name]) :
    (cache.collect disk).2.read path = .ok content ↔ disk.read path = .ok content := by
  have hshelf : ∀ (shelf : Shelf) (name : String), Path.IsName name →
      Archive.isDead (cache.manifest.liveKeys shelf) name = true →
      path.place ≠ (cache.archive.root.join ⟨shelf.directory⟩).place ++ [name] := by
    intro shelf name hname hdead hplace'
    rw [Path.place_join _ shelf.isName_directory, archive, place_directory, List.append_assoc,
      List.append_assoc] at hplace'
    exact hplace shelf name hname hdead hplace'
  -- Whether a file is read as before is kept for disks on which all that is listed has a name.
  refine (cache.collect_induction disk
    (motive := fun left => left.Spelled ∧ (left.read path = .ok content ↔
      disk.read path = .ok content)) ?_ ⟨hspelled, Iff.rfl⟩).2
  intro shelf middle hmiddle
  exact ⟨Archive.spelled_collect hmiddle.1 _ _ _,
    (Archive.read_collect hmiddle.1 cache.archive (hshelf shelf) content).trans hmiddle.2⟩

/-! ### Spelled disks -/

/-- Collecting keeps a disk spelled. -/
lemma spelled_collect (h : disk.Spelled) : (cache.collect disk).2.Spelled :=
  cache.collect_induction disk (motive := Disk.Spelled)
    (fun _ _ hmiddle => Archive.spelled_collect hmiddle _ _ _) h

/-- Throwing away keeps a disk spelled. -/
lemma spelled_discard (h : disk.Spelled) : (cache.discard disk).2.Spelled := by
  rcases cache.disk_discard disk with heq | ⟨heq, -⟩
  · rw [heq]
    exact h.prune _
  · rw [heq]
    exact h

/-- Attaching keeps a disk spelled. -/
lemma spelled_attach (h : disk.Spelled) : (cache.attach disk).2.Spelled := by
  rcases cache.attach_of_load disk with ⟨manifest, -, -, heq⟩ | ⟨manifest, -, -, heq⟩ | ⟨-, heq⟩
  · rw [heq]
    exact h
  · rw [heq]
    exact spelled_discard h
  · rw [heq]
    exact h

/-- A flush keeps a disk spelled. -/
lemma spelled_done (h : disk.Spelled) : (cache.done disk).2.2.Spelled := by
  have hwrites := Write.spelled_runAll h cache.artifactWrites
  rcases cache.done_cases disk with ⟨-, -, heq⟩ | ⟨-, ⟨error, left, hrun, heq⟩ |
    ⟨error, written, left, hrun, hsave, heq⟩ | ⟨written, left, hrun, hsave, heq⟩⟩
  · rw [heq]
    exact h
  · rw [heq]
    rwa [hrun] at hwrites
  all_goals
    rw [hrun] at hwrites
    have hsaved := Write.spelled_run hwrites (cache.flushedManifest.saving cache.directory)
    unfold Manifest.save at hsave
    rw [heq]
    rwa [hsave] at hsaved

end Cache

/-! ### Worlds -/

namespace World

/-- Whether a call may happen where others leave the root alone. -/
def Admits (world : World) : Call → Prop
  | .edit disk => world.disk.Leaves world.cache.root disk
  | _ => True

/-- Whether several calls may happen one after the other. -/
def AdmitsAll : World → List Call → Prop
  | _, [] => True
  | world, call :: rest => world.Admits call ∧ (world.take call).AdmitsAll rest

/-- The worlds that calls lead to from a disk, if others leave the root alone. -/
inductive Alone (root : Path) (first : Disk) : World → Prop where
  /-- A process opens the root. -/
  | start (config : Digest) (tool : String) (entries : List ModuleId) :
    Alone root first (World.start first root config tool entries)
  /-- Something happens. -/
  | take {world : World} (h : Alone root first world) {call : Call} (hcall : world.Admits call) :
    Alone root first (world.take call)

variable {world : World} {root : Path} {first : Disk}

/-- What may happen where the root is left alone may always happen. -/
lemma Admits.allows {call : Call} (h : world.Admits call) : world.Allows call := by
  cases call with
  | edit disk => exact h.spares
  | _ => trivial

/-- No call changes the root. -/
lemma root_take (world : World) (call : Call) :
    (world.take call).cache.root = world.cache.root := by
  cases call with
  | reopen config tool entries =>
    simp only [World.take, put]
    exact Cache.root_openAt _ _ _ _ _
  | submit path text => exact (world.cache.hears_submit (ModuleId.ofPath path) text).root
  | addImport edge =>
    simp only [World.take, Cache.addImport]
    split_ifs <;> rfl
  | ask part snapshot value =>
    obtain ⟨memory, pending, heq⟩ := world.cache_ask part snapshot value
    exact (congrArg Cache.root heq).trans (world.cache.hears_observe world.disk snapshot.id).root
  | done => exact (world.cache.done_frame world.disk).1
  | collect => rfl
  | clean => rfl
  | reconfigure config =>
    simp only [World.take, put]
    by_cases hsame : config = world.cache.config
    · rw [hsame, Cache.reconfigure_self]
      exact (world.cache.done_frame world.disk).1
    · rw [Cache.reconfigure_eq _ _ hsame]
      dsimp only
      rw [(Cache.hears_recordSnapshots _).root, (Cache.attach_frame _ _).1]
      exact (world.cache.done_frame world.disk).1
  | edit disk => rfl

/-- After every call what is listed on the disk has a name, if it had one before. -/
lemma spelled_take (h : world.disk.Spelled) {call : Call} (hcall : world.Admits call) :
    (world.take call).disk.Spelled := by
  cases call with
  | reopen config tool entries =>
    simp only [World.take, put, Cache.openAt]
    exact Cache.spelled_attach h
  | submit path text => simpa only [World.take] using h
  | addImport edge => simpa only [World.take] using h
  | ask part snapshot value => simpa only [World.take, World.ask] using h
  | done =>
    simp only [World.take, put]
    exact Cache.spelled_done h
  | collect =>
    simp only [World.take]
    exact Cache.spelled_collect h
  | clean =>
    simp only [World.take, put, Cache.clean]
    exact Cache.spelled_discard h
  | reconfigure config =>
    simp only [World.take, put]
    by_cases hsame : config = world.cache.config
    · rw [hsame, Cache.reconfigure_self]
      exact Cache.spelled_done h
    · rw [Cache.reconfigure_eq _ _ hsame]
      dsimp only
      exact Cache.spelled_attach (Cache.spelled_done h)
  | edit disk =>
    simp only [World.take]
    exact hcall.spelled

namespace Alone

/-- The root is the one that was opened. -/
lemma root_eq (h : Alone root first world) : world.cache.root = root := by
  induction h with
  | start config tool entries =>
    simp only [World.start]
    exact Cache.root_openAt _ _ _ _ _
  | take _ _ ih => exact (root_take _ _).trans ih

/-- If the root was empty at first, these worlds are reachable. -/
lemma reachable (h : Alone root first world) (hbare : first.IsBare root.place) :
    Reachable root world := by
  induction h with
  | start config tool entries => exact .start hbare config tool entries
  | take _ hcall ih => exact ih.take hcall.allows

/-- What is listed on the disk has a name, if it had one at first. -/
lemma spelled (h : Alone root first world) (hfirst : first.Spelled) : world.disk.Spelled := by
  induction h with
  | start config tool entries =>
    simp only [World.start, Cache.openAt]
    exact Cache.spelled_attach hfirst
  | take _ hcall ih => exact spelled_take ih hcall

/-- Several calls lead on. -/
lemma run (h : Alone root first world) {calls : List Call} (hcalls : world.AdmitsAll calls) :
    Alone root first (world.run calls) := by
  induction calls generalizing world with
  | nil => exact h
  | cons call rest ih => exact ih (h.take hcalls.1) hcalls.2

end Alone

/-- A world where the output of a module with an empty text was asked for. -/
@[irreducible]
def answered : World :=
  (start .empty ⟨"cache"⟩ .zero "" []).run
    [.submit "a" "", .ask .output ⟨⟨"a"⟩, "", 1⟩ .nothing]

/-- Nobody else touches its root. -/
lemma alone_answered : Alone ⟨"cache"⟩ .empty answered := by
  unfold answered
  exact (Alone.start .zero "" []).run ⟨trivial, trivial, trivial⟩

/-- The output can be stored, and what is stored can be thrown away. -/
lemma done_answered : (answered.cache.done answered.disk).1.isFailed = false ∧
    ((answered.take .done).disk.removeTree
      (answered.take .done).cache.directory).toOption.isSome = true := by
  decide +kernel

end World

end Recompile
