import Recompile.Proofs.Cache.Order
import Recompile.Proofs.Cache.Restart

/-!
# What a text invalidates, and what it does not

Handing in a text raises the generations of the modules connected to its module, and only if another
text was recorded.  Whatever else is known goes on being served.

To see the second part, a lookup after the text is compared with the same lookup before it.  Both
read the wanted modules first.  These can be read in any order, so the module of the text is put
last (`Cache.InStep.observe_of_wanted`): before that both lookups have read the same modules
(`Cache.observeBut`), and then one of them reads the module from disk while the other one was handed
its text.  If the record of the looked-up slot is served in the first case, then the disk has the
recorded text, if any; and unless the text that was handed in differs from that, the record is the
same in the second case (`Cache.InStep.recordOf_observe_submit`).
-/

namespace Recompile

namespace Cache

variable {cache : Cache} {disk : Disk} {id asked : ModuleId}

/-! ### Reading all wanted modules but one -/

/-- The cache after the wanted modules were read, except for one. -/
def observeBut (cache : Cache) (disk : Disk) (asked id : ModuleId) : Cache :=
  ((cache.wanted asked).filter (· ≠ id)).foldl (observeOne disk) cache

/-- A module that was handed in is not wanted any more. -/
lemma wanted_submit (cache : Cache) (id asked : ModuleId) (text : String) :
    (cache.submit id text).2.wanted asked = (cache.wanted asked).filter (· ≠ id) := by
  unfold wanted
  rw [(cache.hears_submit id text).graph, List.filter_filter]
  apply List.filter_congr
  intro other _
  rw [Bool.eq_iff_iff]
  simp only [Bool.and_eq_true, decide_eq_true_iff, Std.ExtTreeSet.contains_iff_mem,
    mem_unobserved_submit]
  tauto

/-- If a module is not wanted, all wanted modules are read. -/
lemma observeBut_of_not_wanted (h : id ∉ cache.wanted asked) :
    cache.observeBut disk asked id = cache.observe disk asked := by
  have hall : (cache.wanted asked).filter (· ≠ id) = cache.wanted asked := by
    rw [List.filter_eq_self]
    intro other hother
    rw [decide_eq_true_iff]
    rintro rfl
    exact h hother
  unfold observeBut
  rw [hall, observe_eq]

/-- Reading the wanted modules but one is hearing of texts. -/
lemma hears_observeBut (cache : Cache) (disk : Disk) (asked id : ModuleId) :
    ∃ count, Hears count cache (cache.observeBut disk asked id) :=
  ⟨_, Hears.foldl (hears_observeOne disk) _ cache⟩

namespace InStep

/-- The wanted modules but one are normal. -/
lemma normal_wantedBut (h : cache.InStep) (asked id : ModuleId) :
    ∀ other ∈ (cache.wanted asked).filter (· ≠ id), other.Normal := by
  intro other hother
  exact h.normal_wanted asked other (List.mem_of_mem_filter hother)

/-- The one module that is not read stays as it is recorded. -/
lemma content?_observeBut (h : cache.InStep) (disk : Disk) (asked id : ModuleId) :
    (cache.observeBut disk asked id).manifest.content? id = cache.manifest.content? id := by
  apply h.content?_foldl_observeOne (h.normal_wantedBut asked id)
  intro hmem
  exact of_decide_eq_true (List.mem_filter.mp hmem).2 rfl

/-- Reading the wanted modules but one keeps a cache in step. -/
lemma observeBut (h : cache.InStep) (disk : Disk) (asked id : ModuleId) :
    (cache.observeBut disk asked id).InStep :=
  h.foldl_observeOne disk (h.normal_wantedBut asked id)

/-- A wanted module can be read last. -/
lemma observe_of_wanted (h : cache.InStep) (hwanted : id ∈ cache.wanted asked) :
    cache.observe disk asked =
      Cache.observeOne disk (cache.observeBut disk asked id) id := by
  have hnodup : (cache.wanted asked).Nodup := (cache.graph.nodup_reachable [asked]).filter _
  have hlast : ((cache.wanted asked).filter (· ≠ id) ++ [id]).Nodup := by
    apply List.nodup_append.mpr
    refine ⟨hnodup.filter _, List.nodup_singleton id, ?_⟩
    rintro other hother last hid rfl
    exact of_decide_eq_true (List.mem_filter.mp hother).2 (List.mem_singleton.mp hid)
  have hperm : (cache.wanted asked).Perm ((cache.wanted asked).filter (· ≠ id) ++ [id]) := by
    rw [List.perm_ext_iff_of_nodup hnodup hlast]
    intro other
    rw [List.mem_append, List.mem_filter, List.mem_singleton, decide_eq_true_iff]
    constructor
    · intro hother
      by_cases hid : other = id
      · exact .inr hid
      · exact .inl ⟨hother, hid⟩
    · rintro (⟨hother, -⟩ | rfl)
      · exact hother
      · exact hwanted
  rw [observe_eq, h.foldl_observeOne_perm disk hperm (h.normal_wanted asked), List.foldl_append]
  rfl

/-- Handing in a text and reading another module commute. -/
lemma observeOne_submit (h : cache.InStep) (hid : id.Normal) {read : ModuleId}
    (hread : read.Normal) (hne : read ≠ id) (text : String) :
    Cache.observeOne disk (cache.submit id text).2 read =
      ((Cache.observeOne disk cache read).submit id text).2 := by
  rw [(h.submit hid text).observeOne_eq disk hread, h.observeOne_eq disk hread]
  cases disk.readText ⟨read.text⟩ with
  | error fault =>
    simp only [submit_eq, recordContent_with]
    rw [erase_comm]
  | ok found => exact submit_comm cache (Ne.symm hne) text found

/-- Handing in a text and reading several other modules commute. -/
lemma foldl_observeOne_submit (h : cache.InStep) (hid : id.Normal) {ids : List ModuleId}
    (hnormal : ∀ read ∈ ids, read.Normal) (hne : id ∉ ids) (text : String) :
    ids.foldl (Cache.observeOne disk) (cache.submit id text).2 =
      ((ids.foldl (Cache.observeOne disk) cache).submit id text).2 := by
  induction ids generalizing cache with
  | nil => rfl
  | cons read rest ih =>
    obtain ⟨hfirst, hrest⟩ := not_or.mp (mt List.mem_cons.mpr hne)
    have hread := hnormal read List.mem_cons_self
    rw [List.foldl_cons, List.foldl_cons, h.observeOne_submit hid hread (Ne.symm hfirst)]
    apply ih (h.observeOne disk hread)
    · intro other hother
      exact hnormal other (List.mem_cons_of_mem _ hother)
    · exact hrest

/-- A lookup after a text was handed in reads the other wanted modules. -/
lemma observe_submit (h : cache.InStep) (hid : id.Normal) (asked : ModuleId) (text : String) :
    (cache.submit id text).2.observe disk asked =
      ((cache.observeBut disk asked id).submit id text).2 := by
  rw [observe_eq, wanted_submit]
  apply h.foldl_observeOne_submit hid (h.normal_wantedBut asked id)
  intro hmem
  exact of_decide_eq_true (List.mem_filter.mp hmem).2 rfl

end InStep

/-! ### The record of a slot -/

/-- A text leaves the record of a slot, unless another one was recorded and the modules are
connected. -/
lemma recordOf_submit {slot : Slot} {text : String}
    (hnot : ¬ (cache.Differs id (Digest.ofText text) ∧ cache.graph.Connected id slot.file))
    (disk : Disk) (content : Digest) :
    (cache.submit id text).2.recordOf disk slot content = cache.recordOf disk slot content := by
  have hhears := cache.hears_submit id text
  have hgeneration : (cache.submit id text).2.generation slot.file =
      cache.generation slot.file := by
    rcases cache.generation_submit id slot.file text with ⟨-, hboth⟩ | ⟨hsame, -⟩
    · exact absurd hboth hnot
    · exact hsame
  apply recordOf_congr hhears.root hhears.config hhears.tool (hhears.key _ _) hgeneration
  rw [hhears.memory]

/-- A lookup finds the same record after a text was handed in, unless another one was recorded and
the modules are connected; provided that it finds the recorded text if it has to read the module. -/
theorem InStep.recordOf_observe_submit (h : cache.InStep) (hid : id.Normal) {slot : Slot}
    {text : String}
    (hnot : ¬ (cache.Differs id (Digest.ofText text) ∧ cache.graph.Connected id slot.file))
    (hread : id ∈ cache.wanted slot.file → ∀ found, disk.readText ⟨id.text⟩ = .ok found →
      ¬ cache.Differs id (Digest.ofText found)) (content : Digest) :
    ((cache.submit id text).2.observe disk slot.file).recordOf disk slot content =
      (cache.observe disk slot.file).recordOf disk slot content := by
  have hkept := h.content?_observeBut disk slot.file id
  have hstep := h.observeBut disk slot.file id
  obtain ⟨count, hhears⟩ := cache.hears_observeBut disk slot.file id
  -- Both lookups start from the cache that has read the other wanted modules.
  have hafter : ((cache.submit id text).2.observe disk slot.file).recordOf disk slot content =
      (cache.observeBut disk slot.file id).recordOf disk slot content := by
    rw [h.observe_submit hid]
    apply recordOf_submit
    unfold Differs at hnot ⊢
    rw [hkept, hhears.graph]
    exact hnot
  rw [hafter]
  by_cases hwanted : id ∈ cache.wanted slot.file
  · rw [h.observe_of_wanted hwanted, hstep.observeOne_eq disk hid]
    cases hfound : disk.readText ⟨id.text⟩ with
    | error fault =>
      symm
      apply recordOf_congr <;> rfl
    | ok found =>
      refine (recordOf_submit ?_ disk content).symm
      rintro ⟨hdiffers, -⟩
      unfold Differs at hdiffers
      rw [hkept] at hdiffers
      exact hread hwanted found hfound hdiffers
  · rw [observeBut_of_not_wanted hwanted]

end Cache

/-! ### Worlds -/

namespace World

variable {world after : World} {part : Part} {snapshot : Snapshot} {value : part.Value}

/-- Asking for a part gives the same answer in both worlds, computed in both or in neither. -/
def AnswersAlike (world after : World) (part : Part) (snapshot : Snapshot) (value : part.Value) :
    Prop :=
  (after.given part snapshot value).1 = (world.given part snapshot value).1 ∧
    (after.given part snapshot value).2.2 = (world.given part snapshot value).2.2

/-- The answer depends on the record of the slot. -/
lemma answersAlike_of_recordOf
    (h : (after.cache.observe after.disk snapshot.id).recordOf after.disk (part.slot snapshot.id)
        snapshot.fingerprint =
      (world.cache.observe world.disk snapshot.id).recordOf world.disk (part.slot snapshot.id)
        snapshot.fingerprint) (value : part.Value) :
    world.AnswersAlike after part snapshot value := by
  unfold AnswersAlike given
  rw [after.cache.answer_eq after.disk ⟨part, snapshot, value⟩ rfl,
    world.cache.answer_eq world.disk ⟨part, snapshot, value⟩ rfl]
  dsimp only [Request.slot]
  rw [h]
  exact ⟨rfl, rfl⟩

/-- A lookup that is served has read the recorded text of each module that it had to read and could,
if keys tell generations apart: another text would have raised the generation of the looked-up
module, and nothing is known of a new generation. -/
lemma not_differs_of_served {root : Path} (h : Reachable root world) (hapart : KeysApart world.log)
    (hlt : (world.ask part snapshot value).texts < 2 ^ 64)
    (hserved : (world.given part snapshot value).2.2 = false) {id : ModuleId}
    (hwanted : id ∈ world.cache.wanted snapshot.id) {found : String}
    (hfound : world.disk.readText ⟨id.text⟩ = .ok found) :
    ¬ world.cache.Differs id (Digest.ofText found) := by
  rintro ⟨known, hknown, hne⟩
  have hlineage := h.lineage ((texts_le_take world (.ask part snapshot value)).trans_lt hlt)
  have hraised := raised_ask h.inStep hlineage hlt hwanted hknown hfound (Ne.symm hne)
  have hconnected := (Cache.mem_wanted.mp hwanted).1.symm
  have hlog : (world.ask part snapshot value).log = world.log ++ [] ++
      [⟨answerOf (world.given part snapshot value).2.1 part snapshot
        (world.given part snapshot value).1, false⟩] := by
    rw [← hserved, List.append_nil]
    rfl
  have hnone : world.AllowsAll [] := trivial
  have hcomputed := computed_of_raised h hapart hnone (List.forall_mem_nil _) hlt
    (hraised snapshot.id hconnected) hlog
  exact List.not_mem_nil hcomputed

/-- Handing in the current text of a module changes nothing, if the module is recorded. -/
lemma submit_of_current (hstep : world.InStep) {id : ModuleId} {current : Snapshot}
    (hcurrent : world.cache.snapshots.get? id = some current)
    (hrecorded : (world.cache.manifest.content? id).isSome) :
    (world.cache.submit id current.text).2 = world.cache := by
  obtain ⟨known, hknown⟩ := Option.isSome_iff_exists.mp hrecorded
  have hsame : known = Digest.ofText current.text :=
    hstep.cache.recorded id current known hcurrent hknown
  rw [hsame] at hknown
  have hsnapshots : (world.cache.snapshots.submit id current.text).2 = world.cache.snapshots := by
    unfold SnapshotTable.submit
    rw [hcurrent]
    simp only [if_true]
  have hunobserved : world.cache.unobserved.erase id = world.cache.unobserved := by
    refine Std.ExtTreeSet.ext_mem fun other => ?_
    rw [Std.ExtTreeSet.mem_erase, ne_eq, Std.LawfulEqCmp.compare_eq_iff_eq]
    constructor
    · intro hother
      exact hother.2
    · intro hother
      refine ⟨?_, hother⟩
      rintro rfl
      rw [(hstep.cache.unobserved _ hother).2] at hcurrent
      cases hcurrent
  rw [Cache.submit_eq, Cache.recordContent_of_eq hknown, hsnapshots, hunobserved]

/-- A text raises, by one, the generations of the modules connected to its module, if another text
was recorded, and no others.  A lookup of a module that is not connected, or of any other module if
no other text was recorded, serves what it served before.  The current text of a module changes
nothing that any lookup gives, and if the module is recorded, nothing at all. -/
theorem invalidation_is_precise {root : Path} (h : Reachable root world) {path text : String}
    {id : ModuleId} (hid : id = ModuleId.ofPath path)
    (hafter : after = world.take (.submit path text)) :
    (world.cache.Differs id (Digest.ofText text) →
        ∀ other ∈ world.cache.graph.reachable [id],
          after.cache.generation other = world.cache.generation other + 1 ∧
            (world.texts + 1 < 2 ^ 64 → (after.cache.generation other).toNat =
              (world.cache.generation other).toNat + 1)) ∧
      (∀ other,
        ¬ (world.cache.Differs id (Digest.ofText text) ∧
          other ∈ world.cache.graph.reachable [id]) →
        after.cache.generation other = world.cache.generation other) ∧
      (∀ (part : Part) (snapshot : Snapshot) (value : part.Value),
        (snapshot.id ∉ world.cache.graph.reachable [id] ∨
          snapshot.id ≠ id ∧ ¬ world.cache.Differs id (Digest.ofText text)) →
        (id ∈ world.cache.wanted snapshot.id →
          KeysApart world.log ∧ (world.ask part snapshot value).texts < 2 ^ 64) →
        (world.given part snapshot value).2.2 = false →
        world.AnswersAlike after part snapshot value) ∧
      ∀ current : Snapshot, world.cache.snapshots.get? id = some current → current.text = text →
        (∀ (part : Part) (snapshot : Snapshot) (value : part.Value),
            world.AnswersAlike after part snapshot value) ∧
          ((world.cache.manifest.content? id).isSome → after.cache = world.cache) := by
  have hstep := h.inStep.cache
  have hnormal : id.Normal := hid ▸ ModuleId.normal_ofPath path
  have hcache : after.cache = (world.cache.submit id text).2 := by rw [hafter, hid]; rfl
  have hdisk : after.disk = world.disk := by rw [hafter]; rfl
  refine ⟨?_, ?_, ?_, ?_⟩
  · intro hdiffers other hother
    rw [ImportGraph.mem_reachable_singleton] at hother
    constructor
    · rw [hcache]
      rcases world.cache.generation_submit id other text with ⟨hraised, -⟩ | ⟨-, hnot⟩
      · exact hraised
      · exact absurd ⟨hdiffers, hother⟩ hnot
    · intro hlt
      subst hid hafter
      exact (h.lineage (Nat.lt_of_succ_lt hlt)).generation_submit hlt hdiffers hother
  · intro other hnot
    rw [ImportGraph.mem_reachable_singleton] at hnot
    rw [hcache]
    rcases world.cache.generation_submit id other text with ⟨-, hboth⟩ | ⟨hsame, -⟩
    · exact absurd hboth hnot
    · exact hsame
  · intro part snapshot value houtside hapart hserved
    have hnot : ¬ (world.cache.Differs id (Digest.ofText text) ∧
        world.cache.graph.Connected id snapshot.id) := by
      rintro ⟨hdiffers, hconnected⟩
      rcases houtside with hfar | ⟨-, hsame⟩
      · exact hfar (ImportGraph.mem_reachable_singleton.mpr hconnected)
      · exact hsame hdiffers
    have hread : id ∈ world.cache.wanted snapshot.id → ∀ found,
        world.disk.readText ⟨id.text⟩ = .ok found →
        ¬ world.cache.Differs id (Digest.ofText found) := by
      intro hwanted found hfound
      obtain ⟨hkeys, hlt⟩ := hapart hwanted
      exact not_differs_of_served h hkeys hlt hserved hwanted hfound
    apply answersAlike_of_recordOf
    rw [hcache, hdisk]
    exact hstep.recordOf_observe_submit hnormal hnot hread _
  · intro current hcurrent htext
    subst htext
    have hnot : ¬ world.cache.Differs id (Digest.ofText current.text) := by
      rintro ⟨known, hknown, hne⟩
      exact hne (hstep.recorded id current known hcurrent hknown)
    constructor
    · intro part snapshot value
      apply answersAlike_of_recordOf
      rw [hcache, hdisk]
      apply hstep.recordOf_observe_submit hnormal (fun hboth => hnot hboth.1)
      -- A module with a snapshot is not read from disk.
      intro hwanted
      rw [(hstep.unobserved id (Cache.mem_wanted.mp hwanted).2.2).2] at hcurrent
      cases hcurrent
    · intro hrecorded
      rw [hcache]
      exact submit_of_current h.inStep hcurrent hrecorded

/-- Another text of the imported module raises the importer; a third module, whose output is known,
is served as before. -/
theorem invalidation_is_precise_importing :
    ∃ world after : World, Reachable ⟨"cache"⟩ world ∧
      after = world.take (.submit "a" "x") ∧
      (after.cache.generation ⟨"b"⟩).toNat = (world.cache.generation ⟨"b"⟩).toNat + 1 ∧
      (world.given .output ⟨⟨"c"⟩, "", 1⟩ .nothing).2.2 = false ∧
      world.AnswersAlike after .output ⟨⟨"c"⟩, "", 1⟩ .nothing := by
  obtain ⟨world, hworld⟩ : ∃ world, world = importing.run
      [.submit "c" "", .ask .output ⟨⟨"c"⟩, "", 1⟩ .nothing] := ⟨_, rfl⟩
  have hreach : Reachable ⟨"cache"⟩ world := by
    rw [hworld]
    exact reachable_importing.run ⟨trivial, trivial, trivial⟩
  have hdiffers : world.cache.Differs ⟨"a"⟩ (Digest.ofText "x") := by
    refine ⟨Digest.ofText "", ?_, ?_⟩
    · rw [hworld]
      decide +kernel
    · decide +kernel
  have hconnected : ⟨"b"⟩ ∈ world.cache.graph.reachable [⟨"a"⟩] := by
    rw [hworld]
    decide +kernel
  have hfar : ⟨"c"⟩ ∉ world.cache.graph.reachable [⟨"a"⟩] := by
    rw [hworld]
    decide +kernel
  have hwanted : ⟨"a"⟩ ∉ world.cache.wanted ⟨"c"⟩ := by
    rw [hworld]
    decide +kernel
  have hserved : (world.given .output ⟨⟨"c"⟩, "", 1⟩ .nothing).2.2 = false := by
    rw [hworld]
    decide +kernel
  have htexts : world.texts + 1 < 2 ^ 64 := by
    rw [hworld]
    decide +kernel
  have hid : (⟨"a"⟩ : ModuleId) = ModuleId.ofPath "a" := by decide +kernel
  obtain ⟨hraised, -, hframe, -⟩ := invalidation_is_precise hreach hid
    (show world.take (.submit "a" "x") = world.take (.submit "a" "x") from rfl)
  refine ⟨world, _, hreach, rfl, (hraised hdiffers ⟨"b"⟩ hconnected).2 htexts, hserved, ?_⟩
  exact hframe .output _ _ (.inl hfar) (fun hmem => absurd hmem hwanted) hserved

end World

end Recompile
