import Recompile.Proofs.Cache.History
import Recompile.Proofs.Cache.Manifests

/-!
# The texts that a cache has seen

A cache has a snapshot of each module whose text it has seen, and its manifest has the digest of the
text that was last recorded of a module, perhaps by an earlier process.  `Cache.InStep` says how the
two belong together: what is recorded of a module with a snapshot is the digest of that snapshot,
and the unobserved modules are recorded and have no snapshot.

Recording a new text therefore always compares it with the text seen last.  The exception is a cache
that has thrown everything away: it keeps its snapshots, but nothing is recorded
(`Cache.InStep.clean`).

Reading an unobserved module from disk is the same as handing in what the disk has
(`Cache.InStep.observeOne_eq`).
-/

namespace Recompile

/-! ### Normal identifiers -/

namespace ModuleId

/-- An identifier is normal if it is that of its own text. -/
def Normal (id : ModuleId) : Prop :=
  ofPath id.text = id

/-- The identifier of a path is normal. -/
lemma normal_ofPath (path : String) : (ofPath path).Normal := by
  unfold Normal ofPath
  rw [String.toList_ofList, List.map_map]
  congr 2
  refine List.map_congr_left fun c _ => ?_
  simp only [Function.comp_apply]
  split_ifs with hslash hslash'
  · exact absurd hslash' (by decide)
  · rfl
  · rfl

end ModuleId

/-- Texts are recorded of normal identifiers only. -/
def Manifest.Normal (manifest : Manifest) : Prop :=
  ∀ (id : ModuleId) (content : Digest), manifest.content? id = some content → id.Normal

/-- A new manifest has no texts. -/
lemma Manifest.content?_fresh (tool : String) (config : Digest) (id : ModuleId) :
    (fresh tool config).content? id = none := by
  unfold content?
  rw [state_fresh]
  rfl

/-- A new manifest is normal. -/
lemma Manifest.normal_fresh (tool : String) (config : Digest) : (fresh tool config).Normal := by
  intro id content hcontent
  rw [content?_fresh] at hcontent
  cases hcontent

/-- The snapshots of a table are those of its modules. -/
lemma SnapshotTable.mem_snapshots {table : SnapshotTable} {snapshot : Snapshot} :
    snapshot ∈ table.snapshots ↔ ∃ id, table.get? id = some snapshot := by
  unfold snapshots get?
  rw [List.mem_map]
  constructor
  · rintro ⟨⟨id, found⟩, hmem, rfl⟩
    exact ⟨id, Std.ExtTreeMap.mem_toList_iff_getElem?_eq_some.mp hmem⟩
  · rintro ⟨id, hfound⟩
    exact ⟨(id, snapshot), Std.ExtTreeMap.mem_toList_iff_getElem?_eq_some.mpr hfound, rfl⟩

/-! ### Unseen modules -/

namespace Cache

/-- Collecting the unseen modules of a list of states adds those that are recorded and have no
snapshot. -/
lemma mem_foldl_unseen (snapshots : SnapshotTable) (entries : List (ModuleId × FileState))
    (ids : Std.ExtTreeSet ModuleId) (id : ModuleId) :
    id ∈ entries.foldl (fun ids entry =>
        if entry.2.content.isSome && (snapshots.get? entry.1).isNone then ids.insert entry.1
        else ids) ids ↔
      id ∈ ids ∨ ∃ state, (id, state) ∈ entries ∧ state.content.isSome ∧
        (snapshots.get? id).isNone := by
  induction entries generalizing ids with
  | nil => simp
  | cons entry rest ih =>
    rw [List.foldl_cons, ih]
    split_ifs with hunseen
    · rw [Bool.and_eq_true] at hunseen
      rw [Std.ExtTreeSet.mem_insert, Std.LawfulEqCmp.compare_eq_iff_eq]
      constructor
      · rintro ((rfl | hold) | ⟨state, hmem, hstate⟩)
        · exact .inr ⟨entry.2, List.mem_cons_self, hunseen⟩
        · exact .inl hold
        · exact .inr ⟨state, List.mem_cons_of_mem _ hmem, hstate⟩
      · rintro (hold | ⟨state, hmem, hstate⟩)
        · exact .inl (.inr hold)
        · rcases List.mem_cons.mp hmem with rfl | hmem
          · exact .inl (.inl rfl)
          · exact .inr ⟨state, hmem, hstate⟩
    · constructor
      · rintro (hold | ⟨state, hmem, hstate⟩)
        · exact .inl hold
        · exact .inr ⟨state, List.mem_cons_of_mem _ hmem, hstate⟩
      · rintro (hold | ⟨state, hmem, hstate⟩)
        · exact .inl hold
        · rcases List.mem_cons.mp hmem with rfl | hmem
          · exact absurd (Bool.and_eq_true_iff.mpr hstate) hunseen
          · exact .inr ⟨state, hmem, hstate⟩

/-- The unseen modules are those that are recorded and have no snapshot. -/
lemma mem_unseen {snapshots : SnapshotTable} {manifest : Manifest} {id : ModuleId} :
    id ∈ unseen snapshots manifest ↔
      (∃ content, manifest.content? id = some content) ∧ snapshots.get? id = none := by
  unfold unseen
  rw [mem_foldl_unseen, ← Option.isSome_iff_exists, ← Option.isNone_iff_eq_none]
  unfold Manifest.content? Manifest.state
  constructor
  · rintro (hempty | ⟨state, hmem, hcontent, hnone⟩)
    · exact absurd hempty Std.ExtTreeSet.not_mem_empty
    · rw [Std.ExtTreeMap.mem_toList_iff_getElem?_eq_some.mp hmem]
      exact ⟨hcontent, hnone⟩
  · rintro ⟨hcontent, hnone⟩
    cases hstate : manifest.files[id]? with
    | none =>
      rw [hstate] at hcontent
      cases hcontent
    | some state =>
      rw [hstate] at hcontent
      exact .inr ⟨state, Std.ExtTreeMap.mem_toList_iff_getElem?_eq_some.mpr hstate, hcontent, hnone⟩

/-! ### Caches in step -/

/-- The snapshots of a cache belong to what its manifest records. -/
structure InStep (cache : Cache) : Prop where
  /-- Each snapshot is listed under its module. -/
  named : cache.snapshots.Named
  /-- There are snapshots of normal identifiers only. -/
  normal : ∀ id snapshot, cache.snapshots.get? id = some snapshot → id.Normal
  /-- So are recorded texts. -/
  manifest : cache.manifest.Normal
  /-- What is recorded of a module with a snapshot is the digest of the snapshot. -/
  recorded : ∀ id snapshot content, cache.snapshots.get? id = some snapshot →
    cache.manifest.content? id = some content → content = snapshot.fingerprint
  /-- The unobserved modules are recorded and have no snapshot. -/
  unobserved : ∀ id ∈ cache.unobserved,
    (∃ content, cache.manifest.content? id = some content) ∧ cache.snapshots.get? id = none

variable {cache : Cache}

/-- The text of a submitted module is recorded, and the others are as they were. -/
lemma content?_submit (cache : Cache) (id other : ModuleId) (text : String) :
    (cache.submit id text).2.manifest.content? other =
      if other = id then some (Digest.ofText text) else cache.manifest.content? other := by
  unfold submit
  simp only
  rw [content?_recordContent, Snapshot.fingerprint, (cache.snapshots.get?_submit id text).2]

/-- Handing in a text raises the generations of the connected modules, if another text was recorded
before, and no others. -/
lemma generation_submit (cache : Cache) (id other : ModuleId) (text : String) :
    (cache.submit id text).2.generation other = cache.generation other + 1 ∧
        cache.Differs id (Digest.ofText text) ∧ cache.graph.Connected id other ∨
      (cache.submit id text).2.generation other = cache.generation other ∧
        ¬ (cache.Differs id (Digest.ofText text) ∧ cache.graph.Connected id other) := by
  have hrecord := generation_recordContent
    { cache with
      snapshots := (cache.snapshots.submit id text).2, unobserved := cache.unobserved.erase id }
    id other (cache.snapshots.submit id text).1.snapshot.fingerprint
  rw [Snapshot.fingerprint, (cache.snapshots.get?_submit id text).2] at hrecord
  unfold submit
  simp only
  rw [Snapshot.fingerprint, (cache.snapshots.get?_submit id text).2]
  exact hrecord

/-- The snapshots after a text was submitted. -/
lemma snapshots_submit (cache : Cache) (id : ModuleId) (text : String) :
    (cache.submit id text).2.snapshots = (cache.snapshots.submit id text).2 := by
  unfold submit
  simp only [snapshots_recordContent]

/-- Recording a text changes no unobserved module. -/
@[simp] lemma unobserved_recordContent (cache : Cache) (id : ModuleId) (content : Digest) :
    (cache.recordContent id content).unobserved = cache.unobserved := by
  unfold recordContent
  simp only
  split_ifs <;> rfl

/-- A module that is submitted is not unobserved any more. -/
lemma mem_unobserved_submit {id other : ModuleId} {text : String} :
    other ∈ (cache.submit id text).2.unobserved ↔ other ≠ id ∧ other ∈ cache.unobserved := by
  unfold submit
  simp only [unobserved_recordContent]
  rw [Std.ExtTreeSet.mem_erase, ne_eq, Std.LawfulEqCmp.compare_eq_iff_eq, eq_comm]

namespace InStep

/-- Handing in the text of a normal identifier keeps a cache in step. -/
theorem submit (h : cache.InStep) {id : ModuleId} (hid : id.Normal) (text : String) :
    (cache.submit id text).2.InStep where
  named := by
    rw [snapshots_submit]
    exact h.named.submit id text
  normal other snapshot hsnapshot := by
    by_cases hother : other = id
    · rw [hother]
      exact hid
    · rw [snapshots_submit, SnapshotTable.get?_submit_of_ne _ hother] at hsnapshot
      exact h.normal other snapshot hsnapshot
  manifest other content hcontent := by
    rw [content?_submit] at hcontent
    split_ifs at hcontent with hother
    · rw [hother]
      exact hid
    · exact h.manifest other content hcontent
  recorded other snapshot content hsnapshot hcontent := by
    rw [content?_submit] at hcontent
    rw [snapshots_submit] at hsnapshot
    obtain ⟨hget, htext⟩ := cache.snapshots.get?_submit id text
    split_ifs at hcontent with hother
    · rw [hother, hget] at hsnapshot
      rw [← Option.some.inj hcontent, ← Option.some.inj hsnapshot, Snapshot.fingerprint, htext]
    · rw [SnapshotTable.get?_submit_of_ne _ hother] at hsnapshot
      exact h.recorded other snapshot content hsnapshot hcontent
  unobserved other hunobserved := by
    obtain ⟨hother, hold⟩ := mem_unobserved_submit.mp hunobserved
    rw [content?_submit, if_neg hother, snapshots_submit,
      SnapshotTable.get?_submit_of_ne _ hother]
    exact h.unobserved other hold

/-- An unobserved module that cannot be read is given up. -/
lemma giveUp (h : cache.InStep) (id : ModuleId) :
    ({ cache with unobserved := cache.unobserved.erase id } : Cache).InStep :=
  { h with
    unobserved := fun other hother => h.unobserved other (Std.ExtTreeSet.mem_erase.mp hother).2 }

/-- Reading an unobserved module is handing in what the disk has, or giving it up. -/
theorem observeOne_eq (h : cache.InStep) (disk : Disk) {id : ModuleId} (hid : id.Normal) :
    observeOne disk cache id =
      match disk.readText ⟨id.text⟩ with
      | .error _ => { cache with unobserved := cache.unobserved.erase id }
      | .ok text => (cache.submit id text).2 := by
  unfold observeOne SnapshotTable.submitFile
  cases disk.readText ⟨id.text⟩ with
  | error fault => rfl
  | ok text =>
    simp only
    rw [hid, h.named.id_submit id text]
    rfl

/-- Reading an unobserved module keeps a cache in step. -/
lemma observeOne (h : cache.InStep) (disk : Disk) {id : ModuleId} (hid : id.Normal) :
    (observeOne disk cache id).InStep := by
  rw [h.observeOne_eq disk hid]
  split
  · exact h.giveUp id
  · exact h.submit hid _

/-- The unobserved modules are normal. -/
lemma normal_unobserved (h : cache.InStep) {id : ModuleId} (hid : id ∈ cache.unobserved) :
    id.Normal := by
  obtain ⟨⟨content, hcontent⟩, -⟩ := h.unobserved id hid
  exact h.manifest id content hcontent

/-- Reading several modules keeps a cache in step. -/
lemma foldl_observeOne (h : cache.InStep) (disk : Disk) {ids : List ModuleId}
    (hids : ∀ id ∈ ids, id.Normal) : (ids.foldl (Cache.observeOne disk) cache).InStep := by
  induction ids generalizing cache with
  | nil => exact h
  | cons id rest ih =>
    exact ih (h.observeOne disk (hids id List.mem_cons_self)) fun other hother =>
      hids other (List.mem_cons_of_mem _ hother)

end InStep

/-- The modules that are read from disk before a module is looked up. -/
def wanted (cache : Cache) (id : ModuleId) : List ModuleId :=
  (cache.graph.reachable [id]).filter fun other => other ≠ id && cache.unobserved.contains other

/-- They are the other connected modules that are unobserved. -/
lemma mem_wanted {id other : ModuleId} : other ∈ cache.wanted id ↔
    cache.graph.Connected id other ∧ other ≠ id ∧ other ∈ cache.unobserved := by
  unfold wanted
  rw [List.mem_filter, ImportGraph.mem_reachable_singleton, Bool.and_eq_true, decide_eq_true_iff,
    Std.ExtTreeSet.contains_iff_mem]

/-- Before a module is looked up, these are read one after the other. -/
lemma observe_eq (cache : Cache) (disk : Disk) (id : ModuleId) :
    cache.observe disk id = (cache.wanted id).foldl (observeOne disk) cache := rfl

/-- Where no module is unobserved nothing is read before a lookup. -/
lemma observe_of_empty (h : cache.unobserved = ∅) (disk : Disk) (id : ModuleId) :
    cache.observe disk id = cache := by
  have hwanted : cache.wanted id = [] := by
    refine List.eq_nil_iff_forall_not_mem.mpr fun other hother => ?_
    have hunobserved := (mem_wanted.mp hother).2.2
    rw [h] at hunobserved
    exact absurd hunobserved Std.ExtTreeSet.not_mem_empty
  rw [observe_eq, hwanted]
  rfl

/-- Reading the unobserved modules keeps a cache in step. -/
lemma InStep.observe (h : cache.InStep) (disk : Disk) (id : ModuleId) :
    (cache.observe disk id).InStep :=
  h.foldl_observeOne disk fun _ hother => h.normal_unobserved (mem_wanted.mp hother).2.2

namespace InStep

variable {disk : Disk}

/-- Reading a module changes what is recorded of that module alone. -/
lemma content?_observeOne_of_ne (h : cache.InStep) {id other : ModuleId} (hid : id.Normal)
    (hne : other ≠ id) :
    (Cache.observeOne disk cache id).manifest.content? other = cache.manifest.content? other := by
  rw [h.observeOne_eq disk hid]
  split
  · rfl
  · rw [content?_submit, if_neg hne]

/-- A module that is read is not unobserved any more. -/
lemma mem_unobserved_observeOne (h : cache.InStep) {id other : ModuleId} (hid : id.Normal) :
    other ∈ (Cache.observeOne disk cache id).unobserved ↔
      other ≠ id ∧ other ∈ cache.unobserved := by
  rw [h.observeOne_eq disk hid]
  split
  · rw [Std.ExtTreeSet.mem_erase, ne_eq, Std.LawfulEqCmp.compare_eq_iff_eq, eq_comm]
  · exact mem_unobserved_submit

/-- Reading several modules changes what is recorded of them alone. -/
lemma content?_foldl_observeOne (h : cache.InStep) {ids : List ModuleId} {other : ModuleId}
    (hids : ∀ id ∈ ids, id.Normal) (hother : other ∉ ids) :
    (ids.foldl (Cache.observeOne disk) cache).manifest.content? other =
      cache.manifest.content? other := by
  induction ids generalizing cache with
  | nil => rfl
  | cons id rest ih =>
    obtain ⟨hne, hrest⟩ := not_or.mp (mt List.mem_cons.mpr hother)
    have hid := hids id List.mem_cons_self
    rw [List.foldl_cons, ih (h.observeOne disk hid)
      (fun id hmem => hids id (List.mem_cons_of_mem _ hmem)) hrest,
      h.content?_observeOne_of_ne hid hne]

/-- Modules that are read are not unobserved any more. -/
lemma mem_unobserved_foldl_observeOne (h : cache.InStep) {ids : List ModuleId} {other : ModuleId}
    (hids : ∀ id ∈ ids, id.Normal) :
    other ∈ (ids.foldl (Cache.observeOne disk) cache).unobserved ↔
      other ∉ ids ∧ other ∈ cache.unobserved := by
  induction ids generalizing cache with
  | nil => simp
  | cons id rest ih =>
    have hid := hids id List.mem_cons_self
    rw [List.foldl_cons, ih (h.observeOne disk hid)
      (fun id hmem => hids id (List.mem_cons_of_mem _ hmem)), h.mem_unobserved_observeOne hid,
      List.mem_cons, not_or]
    tauto

/-- The modules that are wanted are normal. -/
lemma normal_wanted (h : cache.InStep) (id : ModuleId) : ∀ other ∈ cache.wanted id, other.Normal :=
  fun _ hother => h.normal_unobserved (mem_wanted.mp hother).2.2

/-- Before a lookup only wanted modules are read. -/
lemma content?_observe (h : cache.InStep) {id other : ModuleId} (hother : other ∉ cache.wanted id) :
    (cache.observe disk id).manifest.content? other = cache.manifest.content? other := by
  rw [observe_eq]
  exact h.content?_foldl_observeOne (h.normal_wanted id) hother

/-- Before a lookup all wanted modules are read. -/
lemma mem_unobserved_observe (h : cache.InStep) {id other : ModuleId} :
    other ∈ (cache.observe disk id).unobserved ↔
      other ∉ cache.wanted id ∧ other ∈ cache.unobserved := by
  rw [observe_eq]
  exact h.mem_unobserved_foldl_observeOne (h.normal_wanted id)

/-- After a lookup no other connected module is unobserved. -/
theorem not_mem_unobserved_observe (h : cache.InStep) {id other : ModuleId}
    (hconnected : cache.graph.Connected id other) (hne : other ≠ id) :
    other ∉ (cache.observe disk id).unobserved := by
  intro hunobserved
  obtain ⟨hwanted, hold⟩ := h.mem_unobserved_observe.mp hunobserved
  exact hwanted (mem_wanted.mpr ⟨hconnected, hne, hold⟩)

/-- What is recorded of a wanted module that cannot be read stays. -/
theorem content?_observe_of_error (h : cache.InStep) {id other : ModuleId} {fault : Disk.Fault}
    (hwanted : other ∈ cache.wanted id) (hread : disk.readText ⟨other.text⟩ = .error fault) :
    (cache.observe disk id).manifest.content? other = cache.manifest.content? other := by
  have hnormal := h.normal_wanted id
  obtain ⟨before, after, heq, hbefore⟩ := List.eq_append_cons_of_mem hwanted
  have hnodup : (cache.wanted id).Nodup := (cache.graph.nodup_reachable [id]).filter _
  rw [heq] at hnodup
  have hafter : other ∉ after := (List.nodup_cons.mp (List.nodup_append.mp hnodup).2.1).1
  rw [heq] at hnormal
  have hnormalBefore := fun id hmem => hnormal id (List.mem_append_left _ hmem)
  have hnormalOther := hnormal other (List.mem_append_right _ List.mem_cons_self)
  have hnormalAfter := fun id hmem =>
    hnormal id (List.mem_append_right _ (List.mem_cons_of_mem _ hmem))
  have hfirst := h.foldl_observeOne disk hnormalBefore
  rw [observe_eq, heq, List.foldl_append, List.foldl_cons,
    (hfirst.observeOne disk hnormalOther).content?_foldl_observeOne hnormalAfter hafter,
    hfirst.observeOne_eq disk hnormalOther, hread]
  exact h.content?_foldl_observeOne hnormalBefore hbefore

/-- A wanted module that has another text than the recorded one raises the generations of the
modules connected to it. -/
theorem raised_observe (h : cache.InStep) {bound : Nat}
    (hbound : ∀ id, (cache.generation id).toNat ≤ bound) {id other connected : ModuleId}
    (hlt : bound + (cache.graph.reachable [id]).length < 2 ^ 64) {content : Digest} {text : String}
    (hwanted : other ∈ cache.wanted id) (hcontent : cache.manifest.content? other = some content)
    (hread : disk.readText ⟨other.text⟩ = .ok text) (hchanged : Digest.ofText text ≠ content)
    (hconnected : cache.graph.Connected other connected) :
    (cache.generation connected).toNat <
      ((cache.observe disk id).generation connected).toNat := by
  have hnormal := h.normal_wanted id
  have hlength : (cache.wanted id).length ≤ (cache.graph.reachable [id]).length :=
    List.length_filter_le _ _
  obtain ⟨before, after, heq, hbefore⟩ := List.eq_append_cons_of_mem hwanted
  rw [heq] at hnormal hlength
  rw [List.length_append, List.length_cons] at hlength
  have hnormalBefore := fun id hmem => hnormal id (List.mem_append_left _ hmem)
  have hnormalOther := hnormal other (List.mem_append_right _ List.mem_cons_self)
  rw [observe_eq, heq, List.foldl_append, List.foldl_cons]
  -- The modules read before leave what is recorded of this one, and raise generations at most.
  have hfirst := h.foldl_observeOne disk hnormalBefore
  have hhears := Hears.foldl (hears_observeOne disk) before cache
  have hgrow := hhears.generation bound hbound (by omega)
  have hkept : (before.foldl (Cache.observeOne disk) cache).manifest.content? other =
      cache.manifest.content? other :=
    h.content?_foldl_observeOne hnormalBefore hbefore
  generalize before.foldl (Cache.observeOne disk) cache = middle at hfirst hhears hgrow hkept ⊢
  -- This one is handed in and differs.
  have hdiffers : middle.Differs other (Digest.ofText text) :=
    ⟨content, hkept.trans hcontent, Ne.symm hchanged⟩
  have hone : Cache.observeOne disk middle other = (middle.submit other text).2 := by
    rw [hfirst.observeOne_eq disk hnormalOther, hread]
  have hraised : ((Cache.observeOne disk middle other).generation connected).toNat =
      (middle.generation connected).toNat + 1 := by
    rw [hone]
    have hle := (hgrow connected).2
    rcases middle.generation_submit other connected text with ⟨hraised, -⟩ | ⟨-, hnot⟩
    · rw [hraised, toNat_raised (by omega)]
    · rw [hhears.graph] at hnot
      exact absurd ⟨hdiffers, hconnected⟩ hnot
  -- The modules read after it lower no generation.
  have hlast := (Hears.foldl (hears_observeOne disk) after
    (Cache.observeOne disk middle other)).generation (bound + before.length + 1)
    (fun id => ((hears_observeOne disk middle other).generation _ (fun id => (hgrow id).2)
      (by omega) id).2) (by omega) connected
  have hfirstLe := (hgrow connected).1
  omega

end InStep

/-- The memory does not matter. -/
lemma InStep.withMemory (h : cache.InStep) (memory : Std.ExtTreeMap Slot Record) :
    ({ cache with memory } : Cache).InStep :=
  { h with }

/-! ### All snapshots -/

/-- After the texts of several snapshots were recorded, what is recorded of a module is the digest
of one of them, or none of them is about it and what is recorded is as it was. -/
lemma content?_foldl_recordContent (cache : Cache) (snapshots : List Snapshot) (id : ModuleId) :
    (∃ snapshot ∈ snapshots, snapshot.id = id ∧
        (snapshots.foldl (fun cache snapshot =>
          cache.recordContent snapshot.id snapshot.fingerprint) cache).manifest.content? id =
          some snapshot.fingerprint) ∨
      (∀ snapshot ∈ snapshots, snapshot.id ≠ id) ∧
        (snapshots.foldl (fun cache snapshot =>
          cache.recordContent snapshot.id snapshot.fingerprint) cache).manifest.content? id =
          cache.manifest.content? id := by
  induction snapshots generalizing cache with
  | nil => exact .inr ⟨fun _ hmem => absurd hmem List.not_mem_nil, rfl⟩
  | cons first rest ih =>
    rw [List.foldl_cons]
    rcases ih (cache.recordContent first.id first.fingerprint) with
      ⟨snapshot, hmem, hid, hcontent⟩ | ⟨hother, hcontent⟩
    · exact .inl ⟨snapshot, List.mem_cons_of_mem _ hmem, hid, hcontent⟩
    · rw [content?_recordContent] at hcontent
      split_ifs at hcontent with hid
      · exact .inl ⟨first, List.mem_cons_self, hid.symm, hcontent⟩
      · refine .inr ⟨fun snapshot hmem => ?_, hcontent⟩
        rcases List.mem_cons.mp hmem with rfl | hmem
        · exact Ne.symm hid
        · exact hother snapshot hmem

/-- After all snapshots were recorded, what is recorded of a module is the digest of its snapshot,
if it has one. -/
lemma content?_recordSnapshots (h : cache.snapshots.Named) (id : ModuleId) :
    (∃ snapshot, cache.snapshots.get? id = some snapshot ∧
        cache.recordSnapshots.manifest.content? id = some snapshot.fingerprint) ∨
      cache.snapshots.get? id = none ∧
        cache.recordSnapshots.manifest.content? id = cache.manifest.content? id := by
  rcases cache.content?_foldl_recordContent cache.snapshots.snapshots id with
    ⟨snapshot, hmem, hid, hcontent⟩ | ⟨hnone, hcontent⟩
  · obtain ⟨other, hget⟩ := SnapshotTable.mem_snapshots.mp hmem
    rw [h other snapshot hget] at hid
    rw [hid] at hget
    exact .inl ⟨snapshot, hget, hcontent⟩
  · refine .inr ⟨?_, hcontent⟩
    cases hget : cache.snapshots.get? id with
    | none => rfl
    | some snapshot =>
      exact absurd (h id snapshot hget)
        (hnone snapshot (SnapshotTable.mem_snapshots.mpr ⟨id, hget⟩))

/-- Recording all snapshots changes the manifest alone, and that it has to be stored. -/
lemma recordSnapshots_eq (cache : Cache) :
    ∃ manifest dirty, cache.recordSnapshots = { cache with manifest, dirty } := by
  unfold recordSnapshots
  generalize cache.snapshots.snapshots = snapshots
  induction snapshots generalizing cache with
  | nil => exact ⟨cache.manifest, cache.dirty, rfl⟩
  | cons first rest ih =>
    obtain ⟨manifest, dirty, heq⟩ := ih (cache.recordContent first.id first.fingerprint)
    refine ⟨manifest, dirty, ?_⟩
    rw [List.foldl_cons, heq]
    unfold recordContent
    simp only
    split_ifs <;> rfl

/-- It changes neither the snapshots nor the unobserved modules. -/
lemma recordSnapshots_frame (cache : Cache) :
    cache.recordSnapshots.snapshots = cache.snapshots ∧
      cache.recordSnapshots.unobserved = cache.unobserved := by
  obtain ⟨manifest, dirty, heq⟩ := cache.recordSnapshots_eq
  rw [heq]
  exact ⟨rfl, rfl⟩

/-- Going over to another configuration keeps the tool and the snapshots. -/
lemma reconfigure_frame (cache : Cache) (disk : Disk) (other : Digest) :
    (cache.reconfigure disk other).2.1.config = other ∧
      (cache.reconfigure disk other).2.1.tool = cache.tool ∧
      (cache.reconfigure disk other).2.1.snapshots = cache.snapshots := by
  obtain ⟨-, hconfig, htool, -, -, hsnapshots, -⟩ := cache.done_frame disk
  by_cases hsame : other = cache.config
  · rw [hsame, reconfigure_self]
    exact ⟨hconfig, htool, hsnapshots⟩
  · obtain ⟨-, hconfig', htool', -, -, hsnapshots'⟩ :=
      ((cache.done disk).2.1.switch other).attach_frame (cache.done disk).2.2
    have hhears := hears_recordSnapshots
      (((cache.done disk).2.1.switch other).attach (cache.done disk).2.2).1
    rw [reconfigure_eq cache disk hsame]
    refine ⟨hhears.config.trans hconfig', hhears.tool.trans (htool'.trans htool), ?_⟩
    exact (recordSnapshots_frame _).1.trans (hsnapshots'.trans hsnapshots)

/-- Recording all snapshots brings a cache into step. -/
theorem inStep_recordSnapshots (hnamed : cache.snapshots.Named)
    (hnormal : ∀ id snapshot, cache.snapshots.get? id = some snapshot → id.Normal)
    (hmanifest : cache.manifest.Normal)
    (hunobserved : ∀ id ∈ cache.unobserved,
      (∃ content, cache.manifest.content? id = some content) ∧ cache.snapshots.get? id = none) :
    cache.recordSnapshots.InStep := by
  obtain ⟨hsnapshots, hsame⟩ := cache.recordSnapshots_frame
  constructor
  · rw [hsnapshots]
    exact hnamed
  · rw [hsnapshots]
    exact hnormal
  · intro id content hcontent
    rcases content?_recordSnapshots hnamed id with ⟨snapshot, hget, -⟩ | ⟨-, hold⟩
    · exact hnormal id snapshot hget
    · exact hmanifest id content (hold.symm.trans hcontent)
  · intro id snapshot content hget hcontent
    rw [hsnapshots] at hget
    rcases content?_recordSnapshots hnamed id with ⟨found, hfound, hnew⟩ | ⟨hnone, -⟩
    · rw [hfound] at hget
      rw [hnew] at hcontent
      rw [← Option.some.inj hcontent, Option.some.inj hget]
    · rw [hnone] at hget
      cases hget
  · intro id hid
    rw [hsame] at hid
    obtain ⟨⟨content, hcontent⟩, hnone⟩ := hunobserved id hid
    rw [hsnapshots]
    rcases content?_recordSnapshots hnamed id with ⟨snapshot, hget, -⟩ | ⟨-, hold⟩
    · rw [hget] at hnone
      cases hnone
    · exact ⟨⟨content, hold.trans hcontent⟩, hnone⟩

/-! ### Namespaces -/

/-- After attaching, the unobserved modules are recorded and have no snapshot, if there were none
before. -/
lemma unobserved_attach (disk : Disk) (h : cache.unobserved = ∅) :
    ∀ id ∈ (cache.attach disk).1.unobserved,
      (∃ content, (cache.attach disk).1.manifest.content? id = some content) ∧
        (cache.attach disk).1.snapshots.get? id = none := by
  intro id hid
  rcases cache.attach_cases disk with ⟨manifest, content, -, -, heq⟩ | heq | heq
  · rw [heq] at hid ⊢
    exact mem_unseen.mp hid
  · rw [heq, h] at hid
    exact absurd hid Std.ExtTreeSet.not_mem_empty
  · rw [heq] at hid
    exact absurd hid Std.ExtTreeSet.not_mem_empty

/-- A cache that has opened a namespace has not seen any module that is recorded. -/
theorem mem_unobserved_openAt {disk : Disk} {root : Path} {config : Digest} {tool : String}
    {entries : List ModuleId} {id : ModuleId} {content : Digest}
    (h : (Cache.openAt disk root config tool entries).1.manifest.content? id = some content) :
    id ∈ (Cache.openAt disk root config tool entries).1.unobserved := by
  have hempty : (fresh root config tool entries).snapshots.get? id = none := by
    simp [fresh, SnapshotTable.get?, SnapshotTable.empty]
  have hfresh := Manifest.content?_fresh tool config id
  unfold Cache.openAt at h ⊢
  rcases (fresh root config tool entries).attach_cases disk with
    ⟨manifest, -, -, -, heq⟩ | heq | heq
  · rw [heq] at h ⊢
    exact mem_unseen.mpr ⟨⟨content, h⟩, hempty⟩
  · rw [heq] at h
    exact absurd (hfresh.symm.trans h) (Option.some_ne_none content).symm
  · rw [heq] at h
    exact absurd (hfresh.symm.trans h) (Option.some_ne_none content).symm

namespace InStep

variable {disk : Disk}

/-- A flush keeps a cache in step. -/
lemma done (h : cache.InStep) (disk : Disk) : (cache.done disk).2.1.InStep := by
  obtain ⟨-, -, -, -, -, hsnapshots, hunobserved⟩ := cache.done_frame disk
  constructor
  · rw [hsnapshots]
    exact h.named
  · rw [hsnapshots]
    exact h.normal
  · intro id content hcontent
    rw [content?_manifest_done] at hcontent
    exact h.manifest id content hcontent
  · rw [hsnapshots]
    intro id snapshot content hget hcontent
    rw [content?_manifest_done] at hcontent
    exact h.recorded id snapshot content hget hcontent
  · rw [hsnapshots, hunobserved]
    intro id hid
    rw [content?_manifest_done]
    exact h.unobserved id hid

/-- A cache that has thrown everything away is in step: it has snapshots, and nothing is
recorded. -/
lemma clean (h : cache.InStep) (disk : Disk) : (cache.clean disk).1.InStep where
  named := h.named
  normal := h.normal
  manifest := Manifest.normal_fresh _ _
  recorded id snapshot content _ hcontent := by
    have hnone := Manifest.content?_fresh cache.tool cache.config id
    have hcontent : (Manifest.fresh cache.tool cache.config).content? id = some content := hcontent
    rw [hnone] at hcontent
    cases hcontent
  unobserved id hid := absurd hid Std.ExtTreeSet.not_mem_empty

/-- Opening a namespace whose manifest is normal gives a cache in step. -/
lemma openAt {root : Path} {config : Digest} {tool : String} {entries : List ModuleId}
    (h : (Cache.openAt disk root config tool entries).1.manifest.Normal) :
    (Cache.openAt disk root config tool entries).1.InStep := by
  unfold Cache.openAt at h ⊢
  obtain ⟨-, -, -, -, -, hsnapshots⟩ := (fresh root config tool entries).attach_frame disk
  have hfresh : (fresh root config tool entries).unobserved = ∅ := rfl
  have hnone : ∀ id,
      ((fresh root config tool entries).attach disk).1.snapshots.get? id = none := by
    intro id
    rw [hsnapshots]
    simp [fresh, SnapshotTable.get?, SnapshotTable.empty]
  constructor
  · intro id snapshot hget
    rw [hnone] at hget
    cases hget
  · intro id snapshot hget
    rw [hnone] at hget
    cases hget
  · exact h
  · intro id snapshot content hget
    rw [hnone] at hget
    cases hget
  · exact unobserved_attach disk hfresh

/-- Going over to another configuration keeps a cache in step, if the manifest there is normal. -/
theorem reconfigure (h : cache.InStep) {config : Digest} (hne : config ≠ cache.config)
    (hmanifest :
      (((cache.done disk).2.1.switch config).attach (cache.done disk).2.2).1.manifest.Normal) :
    (cache.reconfigure disk config).2.1.InStep := by
  rw [reconfigure_eq cache disk hne]
  dsimp only
  obtain ⟨-, -, -, -, -, hsnapshots⟩ :=
    ((cache.done disk).2.1.switch config).attach_frame (cache.done disk).2.2
  have hdone := h.done disk
  have hswitch : ((cache.done disk).2.1.switch config).unobserved = ∅ := rfl
  refine inStep_recordSnapshots ?_ ?_ hmanifest (unobserved_attach _ hswitch)
  · rw [hsnapshots]
    exact hdone.named
  · rw [hsnapshots]
    exact hdone.normal

end InStep

/-! ### Recorded snapshots -/

/-- Something is recorded of each module with a snapshot. -/
def Recorded (cache : Cache) : Prop :=
  ∀ id, (cache.snapshots.get? id).isSome → (cache.manifest.content? id).isSome

namespace Recorded

/-- Handing in a text records it. -/
lemma submit (h : cache.Recorded) (id : ModuleId) (text : String) :
    (cache.submit id text).2.Recorded := by
  intro other hknown
  rw [content?_submit]
  split_ifs with hother
  · rfl
  · rw [snapshots_submit, SnapshotTable.get?_submit_of_ne _ hother] at hknown
    exact h other hknown

/-- Reading unobserved modules records their texts. -/
lemma observe (h : cache.Recorded) (hstep : cache.InStep) (disk : Disk) (id : ModuleId) :
    (cache.observe disk id).Recorded := by
  rw [observe_eq]
  have hnormal := hstep.normal_wanted id
  generalize cache.wanted id = ids at hnormal
  induction ids generalizing cache with
  | nil => exact h
  | cons first rest ih =>
    have hfirst := hnormal first List.mem_cons_self
    refine ih ?_ (hstep.observeOne disk hfirst) fun other hother =>
      hnormal other (List.mem_cons_of_mem _ hother)
    rw [hstep.observeOne_eq disk hfirst]
    split
    · exact h
    · exact h.submit first _

/-- A flush changes neither snapshots nor recorded texts. -/
lemma done (h : cache.Recorded) (disk : Disk) : (cache.done disk).2.1.Recorded := by
  intro id hknown
  rw [(cache.done_frame disk).2.2.2.2.2.1] at hknown
  rw [content?_manifest_done]
  exact h id hknown

/-- A cache that has opened a namespace has no snapshots. -/
lemma openAt (disk : Disk) (root : Path) (config : Digest) (tool : String)
    (entries : List ModuleId) : (Cache.openAt disk root config tool entries).1.Recorded := by
  intro id hknown
  unfold Cache.openAt at hknown
  rw [((fresh root config tool entries).attach_frame disk).2.2.2.2.2] at hknown
  simp [fresh, SnapshotTable.get?, SnapshotTable.empty] at hknown

/-- Going over to another configuration records all snapshots. -/
lemma reconfigure (h : cache.Recorded) (hstep : cache.InStep) (disk : Disk) (config : Digest) :
    (cache.reconfigure disk config).2.1.Recorded := by
  by_cases hsame : config = cache.config
  · rw [hsame, reconfigure_self]
    exact h.done disk
  · rw [reconfigure_eq cache disk hsame]
    dsimp only
    obtain ⟨-, -, -, -, -, hsnapshots⟩ :=
      ((cache.done disk).2.1.switch config).attach_frame (cache.done disk).2.2
    intro id hknown
    have hnamed : (((cache.done disk).2.1.switch config).attach
        (cache.done disk).2.2).1.snapshots.Named := by
      rw [hsnapshots]
      exact (hstep.done disk).named
    rcases content?_recordSnapshots hnamed id with ⟨snapshot, -, hcontent⟩ | ⟨hnone, -⟩
    · rw [hcontent]
      rfl
    · rw [(recordSnapshots_frame _).1, hnone] at hknown
      cases hknown

end Recorded

end Cache

/-! ### Reachable worlds -/

namespace World

/-- The cache of a world is in step, and all manifests are normal. -/
structure InStep (world : World) : Prop where
  /-- The cache. -/
  cache : world.cache.InStep
  /-- The manifests below the root. -/
  saved : world.disk.Saves (fun _ manifest => manifest.Normal) world.cache.root.place

/-- The manifest of the cache is normal as well. -/
lemma InStep.saves {world : World} (h : world.InStep) :
    world.cache.Saves (fun _ manifest => manifest.Normal) world.disk :=
  ⟨h.cache.manifest, h.saved⟩

/-- A world is in step if its cache is, and all manifests are normal. -/
lemma inStep_mk {cache : Cache} {disk : Disk} {log : List Served} {texts : Nat}
    (h : cache.InStep) (hsaves : cache.Saves (fun _ manifest => manifest.Normal) disk) :
    (World.mk cache disk log texts).InStep :=
  ⟨h, hsaves.saved⟩

/-- What others do keeps a property of manifests. -/
lemma saves_spares {property : ManifestProperty} {root : Location} {before after : Disk}
    (h : before.Saves property root) (hspares : before.Spares root after) :
    after.Saves property root := by
  intro config content manifest hcontent hmanifest
  rcases hspares _ content hcontent with hold | hmeaningless
  · exact h config content manifest hold hmanifest
  · rw [hmeaningless.manifest] at hmanifest
    cases hmanifest

/-- A bare disk has no manifests. -/
lemma saves_of_isBare {property : ManifestProperty} {disk : Disk} {root : Location}
    (h : disk.IsBare root) : disk.Saves property root := by
  intro config content manifest hcontent
  rw [h] at hcontent
  cases hcontent

/-- Opening a root with normal manifests gives a world in step. -/
lemma inStep_openAt {disk : Disk} {root : Path} {log : List Served} {texts : Nat}
    (h : disk.Saves (fun _ manifest => manifest.Normal) root.place) (config : Digest)
    (tool : String) (entries : List ModuleId) :
    (World.mk (Cache.openAt disk root config tool entries).1
      (Cache.openAt disk root config tool entries).2 log texts).InStep := by
  have hsaves := Cache.Saves.openAt h (Manifest.normal_fresh tool config) entries
  exact inStep_mk (.openAt hsaves.manifest) hsaves

/-- Asking for a part keeps a world in step. -/
lemma InStep.ask {world : World} (h : world.InStep) (part : Part) (snapshot : Snapshot)
    (value : part.Value) : (world.ask part snapshot value).InStep := by
  have hobserve := h.cache.observe world.disk snapshot.id
  have hhears := world.cache.hears_observe world.disk snapshot.id
  obtain ⟨memory, hlookup⟩ := world.cache.lookup_frame world.disk part snapshot
  have hsaved : world.disk.Saves (fun _ manifest => manifest.Normal)
      (world.cache.observe world.disk snapshot.id).root.place := by
    rw [hhears.root]
    exact h.saved
  unfold World.ask given
  rcases world.cache.answer_cases world.disk part snapshot (fun _ => (value, true)) false with
    ⟨found, -, heq⟩ | ⟨-, heq⟩
  · rw [heq, hlookup]
    exact inStep_mk (hobserve.withMemory memory) ⟨hobserve.manifest, hsaved⟩
  · rw [heq, hlookup]
    exact inStep_mk { hobserve with } ⟨hobserve.manifest, hsaved⟩

/-- Going over to another configuration keeps a world in step. -/
lemma InStep.reconfigure {world : World} (h : world.InStep) (config : Digest) :
    (world.take (.reconfigure config)).InStep := by
  have hdone := h.cache.done world.disk
  simp only [World.take, put]
  by_cases hsame : config = world.cache.config
  · rw [hsame, Cache.reconfigure_self]
    exact inStep_mk hdone (h.saves.done hdone.manifest)
  · have hswitch := h.saves.switch hdone.manifest (Manifest.normal_fresh world.cache.tool config)
    have hreconfigure := h.cache.reconfigure hsame hswitch.manifest
    rw [Cache.reconfigure_eq _ _ hsame] at hreconfigure ⊢
    refine inStep_mk hreconfigure ⟨hreconfigure.manifest, ?_⟩
    dsimp only
    rw [(Cache.hears_recordSnapshots _).root]
    exact hswitch.saved

/-- Every call keeps a world in step. -/
theorem InStep.take {world : World} (h : world.InStep) {call : Call} (hcall : world.Allows call) :
    (world.take call).InStep := by
  cases call with
  | reopen config tool entries => exact inStep_openAt h.saved config tool entries
  | submit path text =>
    have hsubmit := h.cache.submit (ModuleId.normal_ofPath path) text
    refine inStep_mk hsubmit ⟨hsubmit.manifest, ?_⟩
    rw [(world.cache.hears_submit (ModuleId.ofPath path) text).root]
    exact h.saved
  | addImport edge =>
    simp only [World.take, Cache.addImport]
    split_ifs
    · exact h
    · exact inStep_mk { h.cache with } ⟨h.cache.manifest, h.saved⟩
  | ask part snapshot value => exact h.ask part snapshot value
  | done =>
    have hdone := h.cache.done world.disk
    exact inStep_mk hdone (h.saves.done hdone.manifest)
  | collect => exact inStep_mk h.cache (h.saves.within (world.cache.collect_within world.disk))
  | clean =>
    exact inStep_mk (h.cache.clean world.disk) (h.saves.clean (Manifest.normal_fresh _ _))
  | reconfigure config => exact h.reconfigure config
  | edit disk => exact inStep_mk h.cache ⟨h.cache.manifest, saves_spares h.saved hcall⟩

/-- Reachable worlds are in step. -/
theorem Reachable.inStep {root : Path} {world : World} (h : Reachable root world) :
    world.InStep := by
  induction h with
  | start hbare config tool entries =>
    exact inStep_openAt (saves_of_isBare hbare) config tool entries
  | take _ hcall ih => exact ih.take hcall

end World

end Recompile
