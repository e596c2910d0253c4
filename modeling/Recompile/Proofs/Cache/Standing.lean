import Recompile.Proofs.Cache.Alone
import Recompile.Proofs.ImportGraph.Changes

/-!
# The manifest that stands

A process takes over the manifest that stands in the directory of its namespace
(`Manifest.standing`).  While it works, its own manifest and its edges run ahead of that one, and
two marks say so: slots that are pending, and the mark that something is dirty.  `Cache.Stands` says
that the marks can be relied on: where nothing is pending and nothing is dirty, the manifest of the
cache is the one that stands.  It holds in all worlds whose root is left alone
(`World.Alone.stands`).

So whoever opens the namespace after a flush that did not fail takes over the manifest of the cache
as it is (`Cache.Stands.openAt`).
-/

namespace Recompile

/-! ### Manifests -/

namespace Manifest

/-- Changing what is known of a module changes no edges. -/
@[simp] lemma edges_update (manifest : Manifest) (id : ModuleId) (change : FileState → FileState) :
    (manifest.update id change).edges = manifest.edges := rfl

/-- Changing what is known of a module leaves a manifest that of its tool and configuration. -/
@[simp] lemma isCompatible_update (manifest : Manifest) (id : ModuleId)
    (change : FileState → FileState) :
    (manifest.update id change).isCompatible = manifest.isCompatible := rfl

/-- Nor does raising generations. -/
lemma foldl_raise (ids : List ModuleId) (manifest : Manifest) :
    (ids.foldl raise manifest).edges = manifest.edges ∧
      (ids.foldl raise manifest).isCompatible = manifest.isCompatible := by
  induction ids generalizing manifest with
  | nil => exact ⟨rfl, rfl⟩
  | cons id rest ih => exact ih (manifest.raise id)

/-- A new manifest is that of its tool and configuration. -/
lemma isCompatible_fresh (tool : String) (config : Digest) :
    (fresh tool config).isCompatible tool config = true := by
  unfold isCompatible fresh
  simp

end Manifest

namespace Cache

variable {cache : Cache} {disk : Disk}

/-! ### Steps inside a process -/

/-- The second cache comes from the first one in a process that does not touch the disk: whatever
changed of the manifest or the edges is marked as dirty. -/
structure Follows (before after : Cache) : Prop where
  /-- The root stays. -/
  root : after.root = before.root
  /-- The configuration stays. -/
  config : after.config = before.config
  /-- The tool stays. -/
  tool : after.tool = before.tool
  /-- The manifest is of the same tools and configurations. -/
  compatible : after.manifest.isCompatible = before.manifest.isCompatible
  /-- The edges of the manifest stay. -/
  edges : after.manifest.edges = before.manifest.edges
  /-- No edge of the graph is lost. -/
  grows : ∀ edge, before.graph.contains edge = true → after.graph.contains edge = true
  /-- What is pending stays pending. -/
  pending : after.pending.isEmpty = true → before.pending.isEmpty = true
  /-- Where nothing is dirty nothing has changed. -/
  quiet : after.dirty = false → before.dirty = false ∧ after.manifest = before.manifest ∧
    after.graph = before.graph

namespace Follows

variable {first second third : Cache}

/-- A cache follows itself, whatever happens to its texts, its records and what is unobserved. -/
lemma frame (cache : Cache) (snapshots : SnapshotTable) (memory : Std.ExtTreeMap Slot Record)
    (unobserved : Std.ExtTreeSet ModuleId) :
    cache.Follows { cache with snapshots, memory, unobserved } :=
  ⟨rfl, rfl, rfl, rfl, rfl, fun _ h => h, fun h => h, fun h => ⟨h, rfl, rfl⟩⟩

/-- A cache follows itself. -/
lemma refl (cache : Cache) : cache.Follows cache :=
  frame cache cache.snapshots cache.memory cache.unobserved

/-- Caches follow one after the other. -/
lemma trans (h : first.Follows second) (h' : second.Follows third) : first.Follows third where
  root := h'.root.trans h.root
  config := h'.config.trans h.config
  tool := h'.tool.trans h.tool
  compatible := h'.compatible.trans h.compatible
  edges := h'.edges.trans h.edges
  grows edge hedge := h'.grows edge (h.grows edge hedge)
  pending hempty := h.pending (h'.pending hempty)
  quiet hdirty := by
    obtain ⟨hdirty', hmanifest', hgraph'⟩ := h'.quiet hdirty
    obtain ⟨hdirty, hmanifest, hgraph⟩ := h.quiet hdirty'
    exact ⟨hdirty, hmanifest'.trans hmanifest, hgraph'.trans hgraph⟩

/-- Steps that follow are done for each item of a list. -/
lemma foldl {α : Type} {step : Cache → α → Cache}
    (hstep : ∀ (cache : Cache) (a : α), cache.Follows (step cache a)) (items : List α)
    (cache : Cache) : cache.Follows (items.foldl step cache) := by
  induction items generalizing cache with
  | nil => exact refl cache
  | cons a rest ih => exact (hstep cache a).trans (ih (step cache a))

end Follows

/-- Recording a text marks what changes. -/
lemma follows_recordContent (cache : Cache) (id : ModuleId) (content : Digest) :
    cache.Follows (cache.recordContent id content) := by
  unfold recordContent
  simp only
  split_ifs with hsame
  · exact .refl cache
  all_goals
    obtain ⟨hedges, hcompatible⟩ := Manifest.foldl_raise _ (cache.manifest.recordContent id content)
    exact ⟨rfl, rfl, rfl, hcompatible, hedges, fun _ h => h, fun h => h, fun h => by cases h⟩

/-- Handing in a text marks what changes. -/
lemma follows_submit (cache : Cache) (id : ModuleId) (text : String) :
    cache.Follows (cache.submit id text).2 := by
  unfold submit
  exact (Follows.frame cache _ cache.memory _).trans (follows_recordContent _ _ _)

/-- Reading an unobserved module marks what changes. -/
lemma follows_observeOne (disk : Disk) (cache : Cache) (id : ModuleId) :
    cache.Follows (observeOne disk cache id) := by
  unfold observeOne
  simp only
  split
  · exact Follows.frame cache cache.snapshots cache.memory _
  · exact (Follows.frame cache _ cache.memory _).trans (follows_recordContent _ _ _)

/-- Reading the unobserved modules marks what changes. -/
lemma follows_observe (cache : Cache) (disk : Disk) (id : ModuleId) :
    cache.Follows (cache.observe disk id) :=
  Follows.foldl (follows_observeOne disk) _ cache

/-- Recording all snapshots marks what changes. -/
lemma follows_recordSnapshots (cache : Cache) : cache.Follows cache.recordSnapshots := by
  have hstep : ∀ (cache : Cache) (snapshot : Snapshot),
      cache.Follows (cache.recordContent snapshot.id snapshot.fingerprint) :=
    fun cache snapshot => cache.follows_recordContent _ _
  exact Follows.foldl hstep cache.snapshots.snapshots cache

/-- Recording an import marks what changes. -/
lemma follows_addImport (cache : Cache) (edge : Edge) : cache.Follows (cache.addImport edge) := by
  unfold addImport
  split_ifs
  · exact .refl cache
  · refine ⟨rfl, rfl, rfl, rfl, rfl, fun other hother => ?_, fun h => h, fun h => by cases h⟩
    rw [ImportGraph.contains_insert, hother, Bool.or_true]

/-- Looking a part up marks what changes. -/
lemma follows_lookup (cache : Cache) (disk : Disk) (part : Part) (snapshot : Snapshot) :
    cache.Follows (cache.lookup disk part snapshot).2 := by
  obtain ⟨memory, heq⟩ := cache.lookup_frame disk part snapshot
  rw [heq]
  exact (cache.follows_observe disk snapshot.id).trans (Follows.frame _ _ memory _)

/-- Keeping a part makes it pending. -/
lemma follows_keep (cache : Cache) (part : Part) (snapshot : Snapshot) (value : part.Value) :
    cache.Follows (cache.keep part snapshot value) := by
  refine ⟨rfl, rfl, rfl, rfl, rfl, fun _ h => h, fun h => ?_, fun h => ⟨h, rfl, rfl⟩⟩
  have hempty : cache.pending.insert (part.slot snapshot.id) = ∅ := Std.ExtTreeSet.isEmpty_iff.mp h
  exact absurd hempty Std.ExtTreeSet.insert_ne_empty

/-! ### What stands -/

/-- The manifest of a cache is that of its tool and configuration, and the standing one unless
something is marked. -/
structure Stands (cache : Cache) (disk : Disk) : Prop where
  /-- The manifest is of this tool and configuration. -/
  compatible : cache.manifest.isCompatible cache.tool cache.config = true
  /-- Its edges are in the graph. -/
  edges : ∀ edge ∈ cache.manifest.edges, cache.graph.contains edge = true
  /-- If nothing is marked, it is the standing one. -/
  standing : cache.pending.isEmpty = true → cache.dirty = false →
    Manifest.standing disk cache.directory cache.tool cache.config = cache.manifest

namespace Stands

/-- What happens inside a process is marked. -/
lemma follows {after : Cache} (h : cache.Stands disk) (hfollows : cache.Follows after) :
    after.Stands disk where
  compatible := by
    rw [hfollows.compatible, hfollows.tool, hfollows.config]
    exact h.compatible
  edges edge hedge := by
    rw [hfollows.edges] at hedge
    exact hfollows.grows edge (h.edges edge hedge)
  standing hempty hdirty := by
    obtain ⟨hdirty', hmanifest, -⟩ := hfollows.quiet hdirty
    have hdirectory : after.directory = cache.directory := by
      unfold directory
      rw [hfollows.root, hfollows.config]
    rw [hdirectory, hfollows.tool, hfollows.config, hmanifest]
    exact h.standing (hfollows.pending hempty) hdirty'

/-- On a disk where the same manifest is loaded the same one stands. -/
lemma congr {other : Disk} (h : cache.Stands disk)
    (hload : ∀ manifest, Manifest.load other cache.directory = .ok (some manifest) ↔
      Manifest.load disk cache.directory = .ok (some manifest)) : cache.Stands other where
  compatible := h.compatible
  edges := h.edges
  standing hempty hdirty := (Manifest.standing_congr hload _ _).trans (h.standing hempty hdirty)

/-- After a namespace was thrown away a new manifest stands. -/
lemma discard (cache : Cache) (disk : Disk) :
    (cache.discard disk).1.Stands (cache.discard disk).2 where
  compatible := Manifest.isCompatible_fresh _ _
  edges _ hedge := absurd hedge List.not_mem_nil
  standing _ _ := Manifest.standing_of_not_load (cache.load_discard disk) _ _

/-- After everything was thrown away as well. -/
lemma clean (cache : Cache) (disk : Disk) : (cache.clean disk).1.Stands (cache.clean disk).2 where
  compatible := Manifest.isCompatible_fresh _ _
  edges _ hedge := absurd hedge List.not_mem_nil
  standing _ _ := Manifest.standing_of_not_load (cache.load_discard disk) _ _

/-- What is attached stands. -/
theorem attach (disk : Disk) (hfresh : cache.manifest = .fresh cache.tool cache.config) :
    (cache.attach disk).1.Stands (cache.attach disk).2 := by
  rcases cache.attach_of_load disk with ⟨manifest, hload, hcompatible, heq⟩ |
    ⟨manifest, -, -, heq⟩ | ⟨hnone, heq⟩
  · rw [heq]
    exact ⟨hcompatible, fun edge hedge =>
      (ImportGraph.contains_insertAll _ _ _).mpr (.inl hedge),
      fun _ _ => Manifest.standing_of_load hload _ _⟩
  · rw [heq]
    exact discard cache disk
  · rw [heq]
    refine ⟨?_, fun edge hedge => ?_, fun _ _ => ?_⟩
    · rw [hfresh]
      exact Manifest.isCompatible_fresh _ _
    · rw [hfresh] at hedge
      exact absurd hedge List.not_mem_nil
    · rw [hfresh]
      exact Manifest.standing_of_not_load hnone _ _

end Stands

/-- The manifest that a flush saves is that of the same tool and configuration. -/
lemma isCompatible_flushedManifest (cache : Cache) :
    cache.flushedManifest.isCompatible = cache.manifest.isCompatible := by
  have hkeys : ∀ (records : List (Slot × Record)) (manifest : Manifest),
      (cache.recordKeys records manifest).isCompatible = manifest.isCompatible := by
    intro records
    induction records with
    | nil => exact fun _ => rfl
    | cons entry rest ih => exact fun manifest => ih _
  exact hkeys cache.pendingRecords cache.manifest

/-- What a flush leaves stands. -/
theorem Stands.done (h : cache.Stands disk) :
    (cache.done disk).2.1.Stands (cache.done disk).2.2 := by
  have hcompatible : cache.flushedManifest.isCompatible cache.tool cache.config = true := by
    rw [isCompatible_flushedManifest]
    exact h.compatible
  have hedges : ∀ edge ∈ cache.flushedManifest.edges, cache.graph.contains edge = true :=
    fun edge hedge => ImportGraph.mem_edges.mp hedge
  rcases cache.done_cases disk with ⟨-, -, heq⟩ | ⟨hmarked, ⟨error, left, -, heq⟩ |
    ⟨error, written, left, -, -, heq⟩ | ⟨written, left, -, hsave, heq⟩⟩
  · rw [heq]
    exact h
  · rw [heq]
    refine ⟨h.compatible, h.edges, fun hempty hdirty => ?_⟩
    rw [hmarked hempty] at hdirty
    cases hdirty
  · rw [heq]
    refine ⟨hcompatible, hedges, fun hempty hdirty => ?_⟩
    have hdirty : cache.dirty = false := hdirty
    rw [hmarked hempty] at hdirty
    cases hdirty
  · rw [heq]
    exact ⟨hcompatible, hedges, fun _ _ =>
      Manifest.standing_of_load (Manifest.load_of_save hsave) _ _⟩

/-- A flush that does not fail leaves nothing marked. -/
lemma unmarked_done (h : (cache.done disk).1.isFailed = false) :
    (cache.done disk).2.1.pending.isEmpty = true ∧ (cache.done disk).2.1.dirty = false := by
  rcases cache.done_cases disk with ⟨hempty, hdirty, heq⟩ | ⟨-, ⟨error, left, -, heq⟩ |
    ⟨error, written, left, -, -, heq⟩ | ⟨written, left, -, -, heq⟩⟩
  · rw [heq]
    exact ⟨hempty, hdirty⟩
  · rw [heq] at h
    cases h
  · rw [heq] at h
    cases h
  · rw [heq]
    exact ⟨Std.ExtTreeSet.isEmpty_empty, rfl⟩

/-- Going over to another configuration leaves what stands there. -/
theorem Stands.reconfigure (h : cache.Stands disk) (config : Digest) :
    (cache.reconfigure disk config).2.1.Stands (cache.reconfigure disk config).2.2 := by
  by_cases hsame : config = cache.config
  · rw [hsame, reconfigure_self]
    exact h.done
  · rw [reconfigure_eq cache disk hsame]
    dsimp only
    have hattach := Stands.attach (cache.done disk).2.2
      (rfl : ((cache.done disk).2.1.switch config).manifest = .fresh _ _)
    exact hattach.follows (follows_recordSnapshots _)

/-- Collecting takes no manifest away. -/
lemma load_collect (hspelled : disk.Spelled) (manifest : Manifest) :
    Manifest.load (cache.collect disk).2 cache.directory = .ok (some manifest) ↔
      Manifest.load disk cache.directory = .ok (some manifest) := by
  refine Manifest.load_congr (fun content _ => read_collect hspelled ?_) manifest
  intro shelf name _ _
  rw [place_manifest]
  exact artifact_ne_manifest.symm

/-- Whoever opens a namespace where nothing is marked takes over the manifest as it is. -/
theorem Stands.openAt (h : cache.Stands disk) (hempty : cache.pending.isEmpty = true)
    (hdirty : cache.dirty = false) (entries : List ModuleId) :
    Cache.openAt disk cache.root cache.config cache.tool entries =
      ({ fresh cache.root cache.config cache.tool entries with
          graph := ImportGraph.empty.insertAll cache.manifest.edges
          unobserved := unseen .empty cache.manifest
          manifest := cache.manifest }, disk) := by
  have hstanding := h.standing hempty hdirty
  have hdirectory : (fresh cache.root cache.config cache.tool entries).directory =
      cache.directory := rfl
  unfold Cache.openAt
  rcases (fresh cache.root cache.config cache.tool entries).attach_of_load disk with
    ⟨manifest, hload, -, heq⟩ | ⟨manifest, hload, hcompatible, -⟩ | ⟨hnone, heq⟩
  · rw [hdirectory] at hload
    rw [Manifest.standing_of_load hload] at hstanding
    rw [heq, hstanding]
    rfl
  · rw [hdirectory] at hload
    rw [Manifest.standing_of_load hload] at hstanding
    rw [hstanding] at hcompatible
    exact absurd (h.compatible.symm.trans hcompatible) (by decide)
  · rw [hdirectory] at hnone
    rw [Manifest.standing_of_not_load hnone] at hstanding
    rw [heq, ← hstanding]
    rfl

end Cache

/-! ### Worlds -/

namespace World

variable {world : World} {root : Path} {first : Disk}

/-- Every call leaves what stands. -/
theorem stands_take (hspelled : world.disk.Spelled) (h : world.cache.Stands world.disk)
    {call : Call} (hcall : world.Admits call) :
    (world.take call).cache.Stands (world.take call).disk := by
  cases call with
  | reopen config tool entries =>
    simp only [World.take, put, Cache.openAt]
    exact Cache.Stands.attach world.disk rfl
  | submit path text =>
    simp only [World.take]
    exact h.follows (world.cache.follows_submit _ text)
  | addImport edge =>
    simp only [World.take]
    exact h.follows (world.cache.follows_addImport edge)
  | ask part snapshot value =>
    exact cache_ask_induction (motive := fun cache => cache.Stands world.disk)
      (h.follows (world.cache.follows_lookup world.disk part snapshot))
      fun hlookup => hlookup.follows (Cache.follows_keep _ part snapshot value)
  | done =>
    simp only [World.take, put]
    exact h.done
  | collect =>
    simp only [World.take]
    exact h.congr (Cache.load_collect hspelled)
  | clean =>
    simp only [World.take, put]
    exact Cache.Stands.clean world.cache world.disk
  | reconfigure config =>
    simp only [World.take, put]
    exact h.reconfigure config
  | edit disk =>
    simp only [World.take]
    exact h.congr (hcall.load_iff world.cache.config)

/-- Where the root is left alone, the manifest of the cache is the standing one unless something is
marked. -/
theorem Alone.stands (h : Alone root first world) (hfirst : first.Spelled) :
    world.cache.Stands world.disk := by
  induction h with
  | start config tool entries =>
    simp only [World.start, Cache.openAt]
    exact Cache.Stands.attach first rfl
  | take h hcall ih => exact stands_take (h.spelled hfirst) ih hcall

/-- Others that do nothing leave the root alone. -/
lemma Alone.leaves_self (h : Alone root first world) (hfirst : first.Spelled) :
    world.disk.Leaves root world.disk :=
  ⟨h.spelled hfirst, fun _ _ => .inl, fun _ _ _ => Iff.rfl⟩

/-- Whoever opens the namespace after a flush that did not fail takes over the manifest that the
flush left, whatever others did elsewhere. -/
theorem openAt_done (h : world.cache.Stands world.disk)
    (hdone : (world.cache.done world.disk).1.isFailed = false) {disk : Disk}
    (hleaves : (world.take .done).disk.Leaves world.cache.root disk) (entries : List ModuleId) :
    Cache.openAt disk world.cache.root world.cache.config world.cache.tool entries =
      ({ Cache.fresh world.cache.root world.cache.config world.cache.tool entries with
          graph := ImportGraph.empty.insertAll (world.cache.done world.disk).2.1.manifest.edges
          unobserved := Cache.unseen .empty (world.cache.done world.disk).2.1.manifest
          manifest := (world.cache.done world.disk).2.1.manifest }, disk) := by
  have hstands := h.done
  obtain ⟨hroot, hconfig, htool, -⟩ := world.cache.done_frame world.disk
  obtain ⟨hempty, hdirty⟩ := Cache.unmarked_done hdone
  simp only [World.take, put] at hleaves
  generalize (world.cache.done world.disk).2.1 = cache at *
  generalize (world.cache.done world.disk).2.2 = left at *
  rw [← hroot] at hleaves
  rw [← hroot, ← hconfig, ← htool]
  exact (hstands.congr (hleaves.load_iff cache.config)).openAt hempty hdirty entries

/-- The same where the root is left alone. -/
theorem Alone.openAt_done (h : Alone root first world) (hfirst : first.Spelled)
    (hdone : (world.cache.done world.disk).1.isFailed = false) {disk : Disk}
    (hleaves : (world.take .done).disk.Leaves root disk) (entries : List ModuleId) :
    Cache.openAt disk root world.cache.config world.cache.tool entries =
      ({ Cache.fresh root world.cache.config world.cache.tool entries with
          graph := ImportGraph.empty.insertAll (world.cache.done world.disk).2.1.manifest.edges
          unobserved := Cache.unseen .empty (world.cache.done world.disk).2.1.manifest
          manifest := (world.cache.done world.disk).2.1.manifest }, disk) := by
  obtain rfl := h.root_eq
  exact World.openAt_done (h.stands hfirst) hdone hleaves entries

end World

end Recompile
