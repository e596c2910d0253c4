import Mathlib.Algebra.Group.Nat.Defs
import Recompile.Cache.Flush
import Recompile.Proofs.ImportGraph.Connected

/-!
# What hearing of texts changes

Texts reach a cache when they are handed in, when an unobserved module is read from disk, and when a
cache goes over to another configuration.  All three record the digest of a text, which is described
here once: the digest is recorded (`Cache.content?_recordContent`), and if another one was recorded
before, the generation of exactly the connected modules is raised
(`Cache.generation_recordContent`).

Everything else stays as it is: `Cache.Hears` says so of a cache before and after it compared a
number of texts.  Generations are numbers of 64 bits, so they are known to grow only as long as
fewer than `2 ^ 64` texts were compared.
-/

namespace Recompile

/-! ### Manifests -/

namespace Manifest

/-- Recording a text changes what is recorded of that module alone. -/
lemma content?_recordContent (manifest : Manifest) (id other : ModuleId) (content : Digest) :
    (manifest.recordContent id content).content? other =
      if other = id then some content else manifest.content? other := by
  unfold content? recordContent
  rw [state_update]
  split_ifs <;> rfl

/-- Recording a text raises no generation. -/
lemma generation_recordContent (manifest : Manifest) (id other : ModuleId) (content : Digest) :
    (manifest.recordContent id content).generation other = manifest.generation other := by
  unfold generation recordContent
  rw [state_update]
  split_ifs with h
  · rw [h]
  · rfl

/-- Recording a text changes no key. -/
lemma key?_recordContent (manifest : Manifest) (id other : ModuleId) (content : Digest)
    (shelf : Shelf) :
    ((manifest.recordContent id content).state other).key? shelf =
      (manifest.state other).key? shelf := by
  unfold recordContent
  rw [state_update]
  split_ifs with h
  · rw [h]
    cases shelf <;> rfl
  · rfl

/-- Raising several modules raises each of them by one and leaves the others alone. -/
lemma state_foldl_raise (manifest : Manifest) {ids : List ModuleId} (hnodup : ids.Nodup)
    (other : ModuleId) :
    (ids.foldl raise manifest).state other =
      if other ∈ ids then
        { manifest.state other with generation := (manifest.state other).generation + 1 }
      else manifest.state other := by
  induction ids generalizing manifest with
  | nil => rfl
  | cons id rest ih =>
    obtain ⟨hid, hrest⟩ := List.nodup_cons.mp hnodup
    rw [List.foldl_cons, ih _ hrest, raise, state_update]
    by_cases hother : other = id
    · subst hother
      rw [if_neg hid, if_pos rfl, if_pos List.mem_cons_self]
    · rw [if_neg hother]
      simp only [List.mem_cons, hother, false_or]

end Manifest

/-! ### Snapshots -/

namespace SnapshotTable

/-- Each snapshot is listed under its module. -/
def Named (table : SnapshotTable) : Prop :=
  ∀ id snapshot, table.get? id = some snapshot → snapshot.id = id

/-- The empty table lists nothing. -/
lemma named_empty : Named empty := by
  intro id snapshot h
  simp [get?, empty] at h

/-- The snapshot that handing in a text gives is that of the module. -/
lemma Named.id_submit {table : SnapshotTable} (h : table.Named) (id : ModuleId) (text : String) :
    (table.submit id text).1.snapshot.id = id := by
  unfold submit
  cases hknown : table.get? id with
  | none => rfl
  | some known =>
    simp only
    split_ifs
    · exact h id known hknown
    · rfl

/-- After handing in a text each snapshot is listed under its module. -/
lemma Named.submit {table : SnapshotTable} (h : table.Named) (id : ModuleId) (text : String) :
    (table.submit id text).2.Named := by
  intro other snapshot hsnapshot
  by_cases hother : other = id
  · subst hother
    rw [(table.get?_submit other text).1] at hsnapshot
    rw [← Option.some.inj hsnapshot]
    exact h.id_submit other text
  · rw [table.get?_submit_of_ne hother] at hsnapshot
    exact h other snapshot hsnapshot

/-- Handing in the text of a snapshot again leaves all snapshots. -/
lemma get?_submit_same {table : SnapshotTable} {id other : ModuleId} {text : String}
    {snapshot : Snapshot} (hsame : ∀ known, table.get? id = some known → text = known.text)
    (h : table.get? other = some snapshot) :
    (table.submit id text).2.get? other = some snapshot := by
  by_cases hid : other = id
  · subst hid
    unfold submit
    simp only [h, ← hsame snapshot h, if_true]
  · rw [get?_submit_of_ne _ hid]
    exact h

end SnapshotTable

namespace Cache

/-! ### Recording a text -/

/-- Another text than the given one is recorded of a module. -/
def Differs (cache : Cache) (id : ModuleId) (content : Digest) : Prop :=
  ∃ known, cache.manifest.content? id = some known ∧ known ≠ content

/-- If another text was recorded, the generation of every connected module is raised. -/
lemma state_recordContent_of_differs {cache : Cache} {id : ModuleId} {content : Digest}
    (h : cache.Differs id content) (other : ModuleId) :
    (cache.recordContent id content).manifest.state other =
      if other ∈ cache.graph.reachable [id] then
        { (cache.manifest.recordContent id content).state other with
          generation := cache.generation other + 1 }
      else (cache.manifest.recordContent id content).state other := by
  obtain ⟨known, hknown, hne⟩ := h
  unfold recordContent
  simp only [hknown, Option.some.injEq, hne, if_false, Option.isSome_some, if_true]
  rw [Manifest.state_foldl_raise _ (cache.graph.nodup_reachable [id])]
  have hgeneration := cache.manifest.generation_recordContent id other content
  unfold Manifest.generation at hgeneration
  rw [hgeneration]
  rfl

/-- If no other text was recorded, only the text is recorded. -/
lemma state_recordContent_of_not_differs {cache : Cache} {id : ModuleId} {content : Digest}
    (h : ¬ cache.Differs id content) (other : ModuleId) :
    (cache.recordContent id content).manifest.state other =
      (cache.manifest.recordContent id content).state other := by
  cases hknown : cache.manifest.content? id with
  | none =>
    unfold recordContent
    simp only [hknown, reduceCtorEq, if_false, Option.isSome_none, Bool.false_eq_true]
    rfl
  | some known =>
    have hsame : known = content := by
      by_contra hne
      exact h ⟨known, hknown, hne⟩
    rw [hsame] at hknown
    unfold recordContent
    simp only [hknown, if_true]
    rw [Manifest.recordContent, Manifest.state_update]
    split_ifs with hother
    · rw [hother, ← hknown]
      rfl
    · rfl

/-- After a text was recorded, it is recorded, and those of other modules are as they were. -/
theorem content?_recordContent (cache : Cache) (id other : ModuleId) (content : Digest) :
    (cache.recordContent id content).manifest.content? other =
      if other = id then some content else cache.manifest.content? other := by
  rw [← Manifest.content?_recordContent, Manifest.content?, Manifest.content?]
  by_cases h : cache.Differs id content
  · rw [state_recordContent_of_differs h]
    split_ifs <;> rfl
  · rw [state_recordContent_of_not_differs h]

/-- Recording a text raises the generations of the connected modules, if another text was recorded
before, and no others. -/
theorem generation_recordContent (cache : Cache) (id other : ModuleId) (content : Digest) :
    (cache.recordContent id content).generation other = cache.generation other + 1 ∧
        cache.Differs id content ∧ cache.graph.Connected id other ∨
      (cache.recordContent id content).generation other = cache.generation other ∧
        ¬ (cache.Differs id content ∧ cache.graph.Connected id other) := by
  have hrecord := cache.manifest.generation_recordContent id other content
  unfold generation Manifest.generation at hrecord ⊢
  by_cases h : cache.Differs id content
  · rw [state_recordContent_of_differs h]
    split_ifs with hconnected
    · exact .inl ⟨rfl, h, ImportGraph.mem_reachable_singleton.mp hconnected⟩
    · exact .inr ⟨hrecord, fun hboth =>
        hconnected (ImportGraph.mem_reachable_singleton.mpr hboth.2)⟩
  · rw [state_recordContent_of_not_differs h]
    exact .inr ⟨hrecord, fun hboth => h hboth.1⟩

/-- Recording a text changes no key. -/
lemma key?_recordContent (cache : Cache) (id other : ModuleId) (content : Digest) (shelf : Shelf) :
    ((cache.recordContent id content).manifest.state other).key? shelf =
      (cache.manifest.state other).key? shelf := by
  rw [← Manifest.key?_recordContent cache.manifest id other content]
  by_cases h : cache.Differs id content
  · rw [state_recordContent_of_differs h]
    split_ifs
    · cases shelf <;> rfl
    · rfl
  · rw [state_recordContent_of_not_differs h]

/-- Recording a text changes no snapshot. -/
@[simp] lemma snapshots_recordContent (cache : Cache) (id : ModuleId) (content : Digest) :
    (cache.recordContent id content).snapshots = cache.snapshots := by
  unfold recordContent
  simp only
  split_ifs <;> rfl

/-! ### What stays -/

/-- The second cache is the first one after it compared so many texts with recorded ones. -/
structure Hears (count : Nat) (before after : Cache) : Prop where
  /-- It is in the same directory. -/
  root : after.root = before.root
  /-- It has the same configuration. -/
  config : after.config = before.config
  /-- It has the same tool. -/
  tool : after.tool = before.tool
  /-- It has the same edges. -/
  graph : after.graph = before.graph
  /-- It has the same records. -/
  memory : after.memory = before.memory
  /-- The same slots are pending. -/
  pending : after.pending = before.pending
  /-- The manifest names the same keys. -/
  key : ∀ id shelf, (after.manifest.state id).key? shelf = (before.manifest.state id).key? shelf
  /-- Generations grow, each by one for each text at most, unless they are too large to grow. -/
  generation : ∀ bound, (∀ id, (before.generation id).toNat ≤ bound) → bound + count < 2 ^ 64 →
    ∀ id, (before.generation id).toNat ≤ (after.generation id).toNat ∧
      (after.generation id).toNat ≤ bound + count

namespace Hears

variable {count more : Nat} {first second third : Cache}

/-- A cache that heard of no texts is as it was. -/
lemma refl (cache : Cache) : Hears 0 cache cache where
  root := rfl
  config := rfl
  tool := rfl
  graph := rfl
  memory := rfl
  pending := rfl
  key _ _ := rfl
  generation _ hbound _ id := ⟨Nat.le_refl _, hbound id⟩

/-- Texts are heard of one after the other. -/
lemma trans (h : Hears count first second) (h' : Hears more second third) :
    Hears (count + more) first third where
  root := h'.root.trans h.root
  config := h'.config.trans h.config
  tool := h'.tool.trans h.tool
  graph := h'.graph.trans h.graph
  memory := h'.memory.trans h.memory
  pending := h'.pending.trans h.pending
  key id shelf := (h'.key id shelf).trans (h.key id shelf)
  generation bound hbound hlt id := by
    have hfirst := h.generation bound hbound (by omega)
    have hsecond := h'.generation (bound + count) (fun other => (hfirst other).2) (by omega) id
    exact ⟨(hfirst id).1.trans hsecond.1, by omega⟩

/-- Texts may be counted too often. -/
lemma mono (h : Hears count first second) (hle : count ≤ more) : Hears more first second where
  root := h.root
  config := h.config
  tool := h.tool
  graph := h.graph
  memory := h.memory
  pending := h.pending
  key := h.key
  generation bound hbound hlt id := by
    have hfirst := h.generation bound hbound (by omega) id
    exact ⟨hfirst.1, by omega⟩

/-- A step that hears of one text each is done for each item of a list. -/
lemma foldl {α : Type} {step : Cache → α → Cache} (hstep : ∀ cache a, Hears 1 cache (step cache a))
    (items : List α) (cache : Cache) : Hears items.length cache (items.foldl step cache) := by
  induction items generalizing cache with
  | nil => exact refl cache
  | cons a rest ih =>
    have h := (hstep cache a).trans (ih (step cache a))
    rwa [Nat.add_comm] at h

end Hears

/-- A generation that can grow is one larger when it is raised. -/
lemma toNat_raised {generation : UInt64} (h : generation.toNat + 1 < 2 ^ 64) :
    (generation + 1).toNat = generation.toNat + 1 := by
  rw [UInt64.toNat_add]
  exact Nat.mod_eq_of_lt (by simpa using h)

/-- Recording a text is hearing of it. -/
theorem hears_recordContent (cache : Cache) (id : ModuleId) (content : Digest) :
    Hears 1 cache (cache.recordContent id content) where
  root := by unfold recordContent; simp only; split_ifs <;> rfl
  config := by unfold recordContent; simp only; split_ifs <;> rfl
  tool := by unfold recordContent; simp only; split_ifs <;> rfl
  graph := by unfold recordContent; simp only; split_ifs <;> rfl
  memory := by unfold recordContent; simp only; split_ifs <;> rfl
  pending := by unfold recordContent; simp only; split_ifs <;> rfl
  key other shelf := cache.key?_recordContent id other content shelf
  generation bound hbound hlt other := by
    have hle := hbound other
    rcases cache.generation_recordContent id other content with ⟨hraised, -⟩ | ⟨hsame, -⟩
    · rw [hraised, toNat_raised (by omega)]
      omega
    · rw [hsame]
      omega

/-- Handing in a text is hearing of it. -/
theorem hears_submit (cache : Cache) (id : ModuleId) (text : String) :
    Hears 1 cache (cache.submit id text).2 := by
  unfold submit
  -- The snapshots and the unobserved modules are no part of what stays.
  have h := hears_recordContent
    { cache with
      snapshots := (cache.snapshots.submit id text).2, unobserved := cache.unobserved.erase id }
    id (cache.snapshots.submit id text).1.snapshot.fingerprint
  exact { h with }

/-- Reading the text of a module is hearing of it. -/
lemma hears_observeOne (disk : Disk) (cache : Cache) (id : ModuleId) :
    Hears 1 cache (observeOne disk cache id) := by
  unfold observeOne
  simp only
  split
  · exact { (Hears.refl cache).mono (Nat.zero_le 1) with }
  · rename_i update snapshots _
    have h := hears_recordContent
      { cache with snapshots, unobserved := cache.unobserved.erase id } update.snapshot.id
      update.snapshot.fingerprint
    exact { h with }

/-- Reading the texts of unobserved modules is hearing of at most one for each connected module. -/
theorem hears_observe (cache : Cache) (disk : Disk) (id : ModuleId) :
    Hears (cache.graph.reachable [id]).length cache (cache.observe disk id) := by
  have h := Hears.foldl (hears_observeOne disk) ((cache.graph.reachable [id]).filter fun other =>
    other ≠ id && cache.unobserved.contains other) cache
  exact h.mono (List.length_filter_le _ _)

/-- Reading the text of a module leaves each snapshot listed under its module. -/
lemma named_observeOne (disk : Disk) {cache : Cache} (h : cache.snapshots.Named) (id : ModuleId) :
    (observeOne disk cache id).snapshots.Named := by
  unfold observeOne SnapshotTable.submitFile
  simp only
  cases disk.readText ⟨id.text⟩ with
  | error fault => exact h
  | ok text =>
    rw [snapshots_recordContent]
    exact h.submit _ text

/-- Reading the texts of several modules does as well. -/
lemma named_observe {cache : Cache} (h : cache.snapshots.Named) (disk : Disk) (id : ModuleId) :
    (cache.observe disk id).snapshots.Named := by
  unfold observe
  generalize (cache.graph.reachable [id]).filter _ = ids
  induction ids generalizing cache with
  | nil => exact h
  | cons other rest ih => exact ih (named_observeOne disk h other)

/-- Comparing the current texts is hearing of them. -/
theorem hears_recordSnapshots (cache : Cache) :
    Hears cache.snapshots.snapshots.length cache cache.recordSnapshots := by
  have hstep : ∀ (other : Cache) (snapshot : Snapshot),
      Hears 1 other (other.recordContent snapshot.id snapshot.fingerprint) :=
    fun other snapshot => other.hears_recordContent snapshot.id snapshot.fingerprint
  exact Hears.foldl hstep cache.snapshots.snapshots cache

end Cache

end Recompile
