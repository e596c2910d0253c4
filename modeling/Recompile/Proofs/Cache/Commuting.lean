import Recompile.Proofs.Cache.Once

/-!
# Texts in any order

Hearing of the texts of two modules one after the other gives the same cache in either order.  The
texts are recorded in different places, and what they do to the generations of the modules connected
to both is to raise them, which commutes (`Manifest.update_comm`, `Cache.recordContent_comm`,
`Cache.submit_comm`).

Before a lookup the unobserved modules are read in the order of the search.  Since that order does
not matter (`Cache.InStep.foldl_observeOne_perm`), neither does the order in which two modules are
looked up, as far as texts go (`Cache.InStep.observe_comm`).
-/

namespace Recompile

/-! ### Manifests -/

namespace Manifest

/-- Changing the states of two modules commutes, and so does changing one state in two ways that
commute. -/
lemma update_comm (manifest : Manifest) {id other : ModuleId} {change next : FileState → FileState}
    (h : id = other → ∀ state, next (change state) = change (next state)) :
    (manifest.update id change).update other next =
      (manifest.update other next).update id change := by
  have hfiles : ((manifest.update id change).update other next).files =
      ((manifest.update other next).update id change).files := by
    refine Std.ExtTreeMap.ext_getElem? fun place => ?_
    unfold update
    simp only [Std.ExtTreeMap.getElem?_insert, Std.LawfulEqCmp.compare_eq_iff_eq]
    have hother := manifest.state_update id other change
    have hid := manifest.state_update other id next
    unfold update at hother hid
    rw [hother, hid]
    by_cases hsame : id = other
    · subst hsame
      rw [if_pos rfl, if_pos rfl, h rfl]
      split_ifs <;> rfl
    · rw [if_neg (Ne.symm hsame), if_neg hsame]
      split_ifs with hfirst hsecond
      · exact absurd (hsecond.trans hfirst.symm) hsame
      all_goals rfl
  exact congrArg (fun files => { manifest with files }) hfiles

/-- Raising two modules commutes. -/
lemma raise_comm (manifest : Manifest) (id other : ModuleId) :
    (manifest.raise id).raise other = (manifest.raise other).raise id :=
  manifest.update_comm fun _ _ => rfl

/-- Recording a text and raising a module commute. -/
lemma recordContent_raise (manifest : Manifest) (id other : ModuleId) (content : Digest) :
    (manifest.raise other).recordContent id content =
      (manifest.recordContent id content).raise other :=
  manifest.update_comm fun _ _ => rfl

/-- Recording the texts of two modules commutes. -/
lemma recordContent_comm (manifest : Manifest) {id other : ModuleId} (hne : id ≠ other)
    (content next : Digest) :
    (manifest.recordContent id content).recordContent other next =
      (manifest.recordContent other next).recordContent id content :=
  manifest.update_comm fun heq => absurd heq hne

/-- Recording a text commutes with raising several modules. -/
lemma recordContent_foldl_raise (manifest : Manifest) (id : ModuleId) (content : Digest)
    (ids : List ModuleId) :
    (ids.foldl raise manifest).recordContent id content =
      ids.foldl raise (manifest.recordContent id content) :=
  (List.foldl_hom (fun manifest : Manifest => manifest.recordContent id content)
    (fun manifest other => (manifest.recordContent_raise id other content).symm)).symm

/-- Raising several modules commutes with raising several others. -/
lemma foldl_raise_comm (manifest : Manifest) (ids others : List ModuleId) :
    others.foldl raise (ids.foldl raise manifest) =
      ids.foldl raise (others.foldl raise manifest) := by
  induction ids generalizing manifest with
  | nil => rfl
  | cons id rest ih =>
    have hraise : others.foldl raise (manifest.raise id) = (others.foldl raise manifest).raise id :=
      List.foldl_hom (fun manifest : Manifest => manifest.raise id) fun manifest other =>
        manifest.raise_comm id other
    rw [List.foldl_cons, List.foldl_cons, ih, hraise]

end Manifest

/-! ### Snapshots -/

namespace SnapshotTable

/-- What is current after a text was handed in depends on what was current before. -/
lemma get?_submit_self (table : SnapshotTable) (id : ModuleId) (text : String) :
    (table.submit id text).2.get? id = some (match table.get? id with
      | none => ⟨id, text, 1⟩
      | some known => if known.text = text then known else ⟨id, text, known.version + 1⟩) := by
  unfold submit
  cases hknown : table.get? id with
  | none => exact Std.ExtTreeMap.getElem?_insert_self
  | some known =>
    simp only
    split_ifs
    · exact hknown
    · exact Std.ExtTreeMap.getElem?_insert_self

/-- Two tables with the same snapshots are the same. -/
lemma ext_get? {table other : SnapshotTable} (h : ∀ id, table.get? id = other.get? id) :
    table = other := by
  cases table
  cases other
  exact congrArg mk (Std.ExtTreeMap.ext_getElem? h)

/-- Handing in the texts of two modules commutes. -/
lemma submit_comm (table : SnapshotTable) {id other : ModuleId} (hne : id ≠ other)
    (text next : String) :
    ((table.submit id text).2.submit other next).2 =
      ((table.submit other next).2.submit id text).2 := by
  refine ext_get? fun place => ?_
  by_cases hid : place = id
  · subst hid
    rw [get?_submit_of_ne _ hne, get?_submit_self, get?_submit_self, get?_submit_of_ne _ hne]
  · by_cases hother : place = other
    · subst hother
      rw [get?_submit_of_ne _ hid, get?_submit_self, get?_submit_self, get?_submit_of_ne _ hid]
    · rw [get?_submit_of_ne _ hother, get?_submit_of_ne _ hid, get?_submit_of_ne _ hid,
        get?_submit_of_ne _ hother]

end SnapshotTable

/-! ### Caches -/

namespace Cache

variable {cache : Cache} {disk : Disk} {id other : ModuleId}

/-- What is recorded already changes nothing. -/
lemma recordContent_of_eq {content : Digest} (h : cache.manifest.content? id = some content) :
    cache.recordContent id content = cache := by
  unfold recordContent
  exact if_pos h

/-- The modules that are raised when a text is recorded that was not recorded. -/
def affected (cache : Cache) (id : ModuleId) : List ModuleId :=
  if (cache.manifest.content? id).isSome then cache.graph.reachable [id] else []

/-- What is not recorded yet changes the manifest. -/
lemma recordContent_of_ne {content : Digest} (h : cache.manifest.content? id ≠ some content) :
    cache.recordContent id content =
      { cache with
        manifest := (cache.affected id).foldl Manifest.raise
          (cache.manifest.recordContent id content)
        dirty := true } := by
  unfold recordContent
  exact if_neg h

/-- Recording the texts of two modules commutes. -/
lemma recordContent_comm (cache : Cache) (hne : id ≠ other) (content next : Digest) :
    (cache.recordContent id content).recordContent other next =
      (cache.recordContent other next).recordContent id content := by
  have hother : (cache.recordContent id content).manifest.content? other =
      cache.manifest.content? other := by
    rw [content?_recordContent, if_neg (Ne.symm hne)]
  have hid : (cache.recordContent other next).manifest.content? id =
      cache.manifest.content? id := by
    rw [content?_recordContent, if_neg hne]
  by_cases hfirst : cache.manifest.content? id = some content
  · rw [recordContent_of_eq hfirst, recordContent_of_eq (hid.trans hfirst)]
  by_cases hsecond : cache.manifest.content? other = some next
  · rw [recordContent_of_eq hsecond, recordContent_of_eq (hother.trans hsecond)]
  have hlater : (cache.recordContent id content).manifest.content? other ≠ some next := by
    rwa [hother]
  have hlater' : (cache.recordContent other next).manifest.content? id ≠ some content := by
    rwa [hid]
  -- The same modules are raised in both orders.
  have hraised : (cache.recordContent id content).affected other = cache.affected other := by
    unfold affected
    rw [hother, recordContent_of_ne hfirst]
  have hraised' : (cache.recordContent other next).affected id = cache.affected id := by
    unfold affected
    rw [hid, recordContent_of_ne hsecond]
  rw [recordContent_of_ne hlater, recordContent_of_ne hlater', hraised, hraised',
    recordContent_of_ne hfirst, recordContent_of_ne hsecond]
  simp only
  rw [Manifest.recordContent_foldl_raise, Manifest.recordContent_foldl_raise,
    Manifest.foldl_raise_comm, Manifest.recordContent_comm _ hne]

/-- Recording a text neither reads nor changes the snapshots and the unobserved modules. -/
lemma recordContent_with (cache : Cache) (snapshots : SnapshotTable)
    (unobserved : Std.ExtTreeSet ModuleId) (id : ModuleId) (content : Digest) :
    ({ cache with snapshots, unobserved } : Cache).recordContent id content =
      { cache.recordContent id content with snapshots, unobserved } := by
  unfold recordContent
  simp only
  split_ifs <;> rfl

/-- Handing in a text records its digest. -/
lemma submit_eq (cache : Cache) (id : ModuleId) (text : String) :
    (cache.submit id text).2 =
      { cache.recordContent id (Digest.ofText text) with
        snapshots := (cache.snapshots.submit id text).2
        unobserved := cache.unobserved.erase id } := by
  unfold submit
  simp only
  rw [Snapshot.fingerprint, (cache.snapshots.get?_submit id text).2, recordContent_with]

/-- Erasing two modules commutes. -/
lemma erase_comm (ids : Std.ExtTreeSet ModuleId) (id other : ModuleId) :
    (ids.erase id).erase other = (ids.erase other).erase id := by
  refine Std.ExtTreeSet.ext_mem fun place => ?_
  simp only [Std.ExtTreeSet.mem_erase]
  tauto

/-- Handing in the texts of two modules commutes. -/
theorem submit_comm (cache : Cache) (hne : id ≠ other) (text next : String) :
    ((cache.submit id text).2.submit other next).2 =
      ((cache.submit other next).2.submit id text).2 := by
  simp only [submit_eq, recordContent_with]
  rw [recordContent_comm _ hne, SnapshotTable.submit_comm _ hne, erase_comm]

namespace InStep

/-- Reading two unobserved modules commutes. -/
theorem observeOne_comm (h : cache.InStep) (disk : Disk) (hid : id.Normal) (hother : other.Normal) :
    Cache.observeOne disk (Cache.observeOne disk cache id) other =
      Cache.observeOne disk (Cache.observeOne disk cache other) id := by
  by_cases hne : id = other
  · rw [hne]
  rw [(h.observeOne disk hid).observeOne_eq disk hother, h.observeOne_eq disk hid,
    (h.observeOne disk hother).observeOne_eq disk hid, h.observeOne_eq disk hother]
  cases disk.readText ⟨id.text⟩ <;> cases disk.readText ⟨other.text⟩ <;> simp only
  · rw [erase_comm]
  · simp only [submit_eq, recordContent_with]
    rw [erase_comm]
  · simp only [submit_eq, recordContent_with]
    rw [erase_comm]
  · exact submit_comm cache hne _ _

/-- The order in which unobserved modules are read does not matter. -/
theorem foldl_observeOne_perm (h : cache.InStep) (disk : Disk) {ids others : List ModuleId}
    (hperm : ids.Perm others) (hnormal : ∀ id ∈ ids, id.Normal) :
    ids.foldl (Cache.observeOne disk) cache = others.foldl (Cache.observeOne disk) cache := by
  induction hperm generalizing cache with
  | nil => rfl
  | cons id _ ih =>
    exact ih (h.observeOne disk (hnormal id List.mem_cons_self))
      fun other hother => hnormal other (List.mem_cons_of_mem _ hother)
  | swap id other rest =>
    have hid := hnormal id (List.mem_cons_of_mem _ List.mem_cons_self)
    simp only [List.foldl_cons]
    rw [h.observeOne_comm disk (hnormal other List.mem_cons_self) hid]
  | trans hfirst _ ih ih' =>
    exact (ih h hnormal).trans (ih' h fun id hid => hnormal id (hfirst.mem_iff.mpr hid))

/-- Reading the unobserved modules connected to two modules commutes: both ways they are the
unobserved ones that are connected to one of the two. -/
theorem observe_comm (h : cache.InStep) (disk : Disk) (id other : ModuleId) :
    (cache.observe disk id).observe disk other = (cache.observe disk other).observe disk id := by
  have hboth : ∀ first second : ModuleId, (cache.observe disk first).observe disk second =
      (cache.wanted first ++ (cache.observe disk first).wanted second).foldl
        (Cache.observeOne disk) cache := by
    intro first second
    rw [observe_eq (cache.observe disk first), observe_eq cache, List.foldl_append]
  have hmem : ∀ first second place : ModuleId,
      place ∈ cache.wanted first ++ (cache.observe disk first).wanted second ↔
        place ∈ cache.wanted first ∨ place ∈ cache.wanted second := by
    intro first second place
    rw [List.mem_append]
    simp only [mem_wanted, (cache.hears_observe disk first).graph, h.mem_unobserved_observe]
    tauto
  have hnodup : ∀ first second : ModuleId,
      (cache.wanted first ++ (cache.observe disk first).wanted second).Nodup := by
    intro first second
    refine List.nodup_append.mpr ⟨(cache.graph.nodup_reachable [first]).filter _,
      ((cache.observe disk first).graph.nodup_reachable [second]).filter _, ?_⟩
    rintro place hplace next hnext rfl
    exact (h.mem_unobserved_observe.mp (mem_wanted.mp hnext).2.2).1 hplace
  rw [hboth, hboth]
  refine h.foldl_observeOne_perm disk ?_ fun place hplace => ?_
  · rw [List.perm_ext_iff_of_nodup (hnodup id other) (hnodup other id)]
    intro place
    rw [hmem, hmem, or_comm]
  · exact ((hmem id other place).mp hplace).elim (h.normal_wanted id place)
      (h.normal_wanted other place)

end InStep

end Cache

end Recompile
