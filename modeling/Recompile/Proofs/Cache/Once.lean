import Recompile.Proofs.Cache.Fresh

/-!
# Slots that are filled once

A part that was asked for with the current snapshot of its module is in memory, and no module
connected to that module is unobserved any more (`Cache.Filled`).  As long as parts are asked for
with current snapshots only, this stays so: reading other modules raises no generation of a module
whose connected modules are all seen, fetching a record replaces only records that do not answer,
and keeping one part of a record leaves its other parts alone.

So until texts, imports or the configuration change, every part of every module is computed at most
once, and asking for it again gives the same answer (`World.slots_are_computed_once`).  What is
stored or collected in between, and what happens to the disk, does not matter.
-/

namespace Recompile

namespace Cache

variable {cache : Cache} {disk : Disk} {id : ModuleId}

/-! ### Seen modules -/

/-- No module connected to a module is unobserved. -/
def Seen (cache : Cache) (id : ModuleId) : Prop :=
  ∀ other, cache.graph.Connected id other → other ∉ cache.unobserved

namespace InStep

/-- Reading a module that is not connected to another one changes neither the generation nor the
snapshot of the other one. -/
lemma observeOne_of_apart (h : cache.InStep) (disk : Disk) {read : ModuleId} (hread : read.Normal)
    (hapart : ¬ cache.graph.Connected id read) :
    (Cache.observeOne disk cache read).generation id = cache.generation id ∧
      (Cache.observeOne disk cache read).snapshots.get? id = cache.snapshots.get? id := by
  have hne : id ≠ read := by
    rintro rfl
    exact hapart .refl
  rw [h.observeOne_eq disk hread]
  split
  · exact ⟨rfl, rfl⟩
  · rename_i text _
    constructor
    · rcases cache.generation_submit read id text with ⟨-, -, hconnected⟩ | ⟨hsame, -⟩
      · exact absurd hconnected.symm hapart
      · exact hsame
    · rw [snapshots_submit, SnapshotTable.get?_submit_of_ne _ hne]

/-- Reading modules that are not connected to another one changes neither its generation nor its
snapshot. -/
lemma foldl_observeOne_of_apart (h : cache.InStep) (disk : Disk) {ids : List ModuleId}
    (hnormal : ∀ read ∈ ids, read.Normal)
    (hapart : ∀ read ∈ ids, ¬ cache.graph.Connected id read) :
    (ids.foldl (Cache.observeOne disk) cache).generation id = cache.generation id ∧
      (ids.foldl (Cache.observeOne disk) cache).snapshots.get? id = cache.snapshots.get? id := by
  induction ids generalizing cache with
  | nil => exact ⟨rfl, rfl⟩
  | cons read rest ih =>
    have hread := hnormal read List.mem_cons_self
    obtain ⟨hgeneration, hsnapshot⟩ :=
      h.observeOne_of_apart disk hread (hapart read List.mem_cons_self)
    have hgraph := (hears_observeOne disk cache read).graph
    obtain ⟨hgeneration', hsnapshot'⟩ := ih (h.observeOne disk hread)
      (fun other hother => hnormal other (List.mem_cons_of_mem _ hother))
      (fun other hother => hgraph ▸ hapart other (List.mem_cons_of_mem _ hother))
    exact ⟨hgeneration'.trans hgeneration, hsnapshot'.trans hsnapshot⟩

/-- Before a lookup no module is read that is connected to a module of which all are seen. -/
lemma observe_of_seen (h : cache.InStep) (hseen : cache.Seen id) (disk : Disk) (asked : ModuleId) :
    (cache.observe disk asked).generation id = cache.generation id ∧
      (cache.observe disk asked).snapshots.get? id = cache.snapshots.get? id := by
  rw [observe_eq]
  exact h.foldl_observeOne_of_apart disk (h.normal_wanted asked) fun read hread hconnected =>
    hseen read hconnected (mem_wanted.mp hread).2.2

/-- Modules that are seen stay seen. -/
lemma seen_observe (h : cache.InStep) (hseen : cache.Seen id) (asked : ModuleId) :
    (cache.observe disk asked).Seen id := by
  intro other hconnected hunobserved
  rw [(cache.hears_observe disk asked).graph] at hconnected
  exact hseen other hconnected (h.mem_unobserved_observe.mp hunobserved).2

/-- Before a lookup no module is read that has a snapshot. -/
lemma get?_observe (h : cache.InStep) {snapshot : Snapshot}
    (hcurrent : cache.snapshots.get? id = some snapshot) (asked : ModuleId) :
    (cache.observe disk asked).snapshots.get? id = some snapshot := by
  have hnormal := h.normal_wanted asked
  have hapart : ∀ read ∈ cache.wanted asked, id ≠ read := by
    rintro read hread rfl
    rw [(h.unobserved id (mem_wanted.mp hread).2.2).2] at hcurrent
    cases hcurrent
  rw [observe_eq]
  generalize cache.wanted asked = ids at hnormal hapart
  induction ids generalizing cache with
  | nil => exact hcurrent
  | cons read rest ih =>
    have hread := hnormal read List.mem_cons_self
    refine ih (h.observeOne disk hread) ?_
      (fun other hother => hnormal other (List.mem_cons_of_mem _ hother))
      (fun other hother => hapart other (List.mem_cons_of_mem _ hother))
    rw [h.observeOne_eq disk hread]
    split
    · exact hcurrent
    · rw [snapshots_submit, SnapshotTable.get?_submit_of_ne _ (hapart read List.mem_cons_self)]
      exact hcurrent

/-- After a lookup with a snapshot all modules connected to its module are seen. -/
lemma seen_of_current (h : cache.InStep) {snapshot : Snapshot}
    (hcurrent : cache.snapshots.get? id = some snapshot) : (cache.observe disk id).Seen id := by
  intro other hconnected hunobserved
  rw [(cache.hears_observe disk id).graph] at hconnected
  by_cases hother : other = id
  · have hnone := ((h.observe disk id).unobserved other hunobserved).2
    rw [hother, h.get?_observe hcurrent] at hnone
    cases hnone
  · exact h.not_mem_unobserved_observe hconnected hother hunobserved

end InStep

/-! ### Filled slots -/

/-- The value of a part for the current snapshot of a module is in memory, and the connected modules
are seen. -/
structure Filled (cache : Cache) (part : Part) (snapshot : Snapshot) (value : part.Value) :
    Prop where
  /-- The snapshot is the current one. -/
  current : cache.snapshots.get? snapshot.id = some snapshot
  /-- A record in memory that answers has the value. -/
  live : ∃ record, cache.live? (part.slot snapshot.id) snapshot.fingerprint
    (cache.generation snapshot.id) = some record ∧ part.get? record = some value
  /-- The connected modules are seen. -/
  seen : cache.Seen snapshot.id

/-- A record in memory that answers is found. -/
lemma fetch_of_live {slot : Slot} {content : Digest} {record : Record}
    (h : cache.live? slot content (cache.generation slot.file) = some record) :
    cache.fetch disk slot content = (some record, cache) := by
  unfold fetch
  simp only [h]

/-- Whether a record in memory answers depends on the memory alone. -/
lemma live?_congr {after : Cache} (h : after.memory = cache.memory) :
    after.live? = cache.live? := by
  unfold live?
  rw [h]

/-- A record that is put into memory leaves the other slots alone. -/
lemma getElem?_insert_of_ne (cache : Cache) {slot other : Slot} (hne : slot ≠ other)
    (record : Record) : (cache.memory.insert slot record)[other]? = cache.memory[other]? := by
  rw [Std.ExtTreeMap.getElem?_insert, if_neg]
  exact fun heq => hne (Std.LawfulEqOrd.eq_of_compare heq)

namespace Filled

variable {part asked : Part} {snapshot current : Snapshot} {value : part.Value}

/-- A slot is filled with one value. -/
lemma eq_value {other : part.Value} (h : cache.Filled part snapshot value)
    (h' : cache.Filled part snapshot other) : value = other := by
  obtain ⟨record, hrecord, hvalue⟩ := h.live
  obtain ⟨record', hrecord', hother⟩ := h'.live
  obtain rfl := Option.some.inj (hrecord.symm.trans hrecord')
  exact Option.some.inj (hvalue.symm.trans hother)

/-- Two current snapshots of one module are the same. -/
lemma eq_snapshot (h : cache.Filled part snapshot value)
    (hcurrent : cache.snapshots.get? current.id = some current) (hid : current.id = snapshot.id) :
    current = snapshot := by
  rw [hid, h.current] at hcurrent
  exact (Option.some.inj hcurrent).symm

/-- Reading unobserved modules leaves a slot filled. -/
lemma observe (h : cache.Filled part snapshot value) (hstep : cache.InStep) (disk : Disk)
    (id : ModuleId) :
    (cache.observe disk id).Filled part snapshot value where
  current := hstep.get?_observe h.current id
  live := by
    obtain ⟨record, hrecord, hvalue⟩ := h.live
    rw [(hstep.observe_of_seen h.seen disk id).1,
      live?_congr (cache.hears_observe disk id).memory]
    exact ⟨record, hrecord, hvalue⟩
  seen := hstep.seen_observe h.seen id

/-- The memory may change, as long as some record in it answers and has the value. -/
lemma replace (h : cache.Filled part snapshot value) {memory : Std.ExtTreeMap Slot Record}
    {pending : Std.ExtTreeSet Slot} {record : Record}
    (hmemory : memory[part.slot snapshot.id]? = some record)
    (hanswers : record.answers snapshot.id snapshot.fingerprint (cache.generation snapshot.id))
    (hvalue : part.get? record = some value) :
    ({ cache with memory, pending } : Cache).Filled part snapshot value where
  current := h.current
  live := ⟨record, live?_eq_some.mpr ⟨hmemory, hanswers⟩, hvalue⟩
  seen := h.seen

/-- Putting a record into another slot leaves a slot filled. -/
lemma insert (h : cache.Filled part snapshot value) {slot : Slot}
    (hne : slot ≠ part.slot snapshot.id) (record : Record) (pending : Std.ExtTreeSet Slot) :
    ({ cache with memory := cache.memory.insert slot record, pending } : Cache).Filled part snapshot
      value := by
  obtain ⟨found, hfound, hvalue⟩ := h.live
  obtain ⟨hmemory, hanswers⟩ := live?_eq_some.mp hfound
  exact h.replace ((cache.getElem?_insert_of_ne hne record).trans hmemory) hanswers hvalue

/-- A part that is asked for is in the slot of a filled one only if it is asked for with the same
snapshot. -/
lemma eq_of_slot (h : cache.Filled part snapshot value)
    (hcurrent : cache.snapshots.get? current.id = some current)
    (hslot : asked.slot current.id = part.slot snapshot.id) : current = snapshot :=
  h.eq_snapshot hcurrent (Slot.mk.inj hslot).2

/-- Fetching a record for a current snapshot leaves a slot filled. -/
lemma fetch (h : cache.Filled part snapshot value)
    (hcurrent : cache.snapshots.get? current.id = some current) :
    (cache.fetch disk (asked.slot current.id) current.fingerprint).2.Filled part snapshot
      value := by
  by_cases hslot : asked.slot current.id = part.slot snapshot.id
  · obtain rfl := h.eq_of_slot hcurrent hslot
    obtain ⟨record, hrecord, -⟩ := h.live
    rw [hslot, fetch_of_live hrecord]
    exact h
  · rcases cache.fetch_cases disk (asked.slot current.id) current.fingerprint with
      ⟨record, -, heq⟩ | ⟨record, -, heq⟩ | ⟨-, heq⟩
    · rw [heq]
      exact h
    · rw [heq]
      exact h.insert hslot record cache.pending
    · rw [heq]
      exact h

/-- Keeping another part for a current snapshot leaves a slot filled. -/
lemma keep (h : cache.Filled part snapshot value)
    (hcurrent : cache.snapshots.get? current.id = some current) (kept : asked.Value)
    (hother : asked = part → current.id ≠ snapshot.id) :
    (cache.keep asked current kept).Filled part snapshot value := by
  by_cases hslot : asked.slot current.id = part.slot snapshot.id
  · -- It is kept in the same record, as another part of it.
    obtain rfl := h.eq_of_slot hcurrent hslot
    obtain ⟨record, hrecord, hvalue⟩ := h.live
    have hpart : part ≠ asked := fun heq => hother heq.symm rfl
    have hbase : cache.base asked current = record := by
      unfold base
      rw [hslot, hrecord, Option.getD_some]
    obtain ⟨hfile, hcontent, hgeneration⟩ := asked.stamp_set kept record
    have hanswers := Record.answers_iff.mp (live?_eq_some.mp hrecord).2
    have hmemory : (cache.memory.insert (asked.slot current.id)
        (asked.set kept (cache.base asked current)))[part.slot current.id]? =
        some (asked.set kept record) := by
      rw [← hslot, ← hbase]
      exact Std.ExtTreeMap.getElem?_insert_self
    refine h.replace hmemory ?_ ?_
    · rw [Record.answers_iff, hfile, hcontent, hgeneration]
      exact hanswers
    · rw [Part.get?_set_of_ne hpart]
      exact hvalue
  · exact h.insert hslot (asked.set kept (cache.base asked current)) _

/-- A part of a filled slot is found. -/
lemma lookup_self (h : cache.Filled part snapshot value) (hstep : cache.InStep) (disk : Disk) :
    (cache.lookup disk part snapshot).1 = some value := by
  obtain ⟨record, hrecord, hvalue⟩ := (h.observe hstep disk snapshot.id).live
  unfold lookup
  rw [fetch_of_live hrecord]
  exact hvalue

/-- Looking up a part for a current snapshot leaves a slot filled. -/
lemma lookup (h : cache.Filled part snapshot value) (hstep : cache.InStep) (disk : Disk)
    (asked : Part) (hcurrent : cache.snapshots.get? current.id = some current) :
    (cache.lookup disk asked current).2.Filled part snapshot value :=
  (h.observe hstep disk current.id).fetch (hstep.get?_observe hcurrent current.id)

/-- Storing results leaves a slot filled. -/
lemma done (h : cache.Filled part snapshot value) (disk : Disk) :
    (cache.done disk).2.1.Filled part snapshot value := by
  obtain ⟨-, -, -, hmemory, hgraph, hsnapshots, hunobserved⟩ := cache.done_frame disk
  constructor
  · rw [hsnapshots]
    exact h.current
  · obtain ⟨record, hrecord, hvalue⟩ := h.live
    rw [generation_done, live?_congr hmemory]
    exact ⟨record, hrecord, hvalue⟩
  · unfold Seen
    rw [hgraph, hunobserved]
    exact h.seen

end Filled

/-- A current snapshot stays current in a lookup, and then all connected modules are seen. -/
lemma InStep.lookup (h : cache.InStep) (disk : Disk) (asked : Part) {snapshot : Snapshot}
    (hcurrent : cache.snapshots.get? snapshot.id = some snapshot) :
    (cache.lookup disk asked snapshot).2.snapshots.get? snapshot.id = some snapshot ∧
      (cache.lookup disk asked snapshot).2.Seen snapshot.id := by
  obtain ⟨memory, heq⟩ := cache.lookup_frame disk asked snapshot
  rw [heq]
  exact ⟨h.get?_observe hcurrent snapshot.id, h.seen_of_current hcurrent⟩

/-- A part that a lookup finds for a current snapshot fills its slot. -/
lemma InStep.filled_of_lookup (h : cache.InStep) {part : Part} {snapshot : Snapshot}
    {value : part.Value} (hcurrent : cache.snapshots.get? snapshot.id = some snapshot)
    (hfound : (cache.lookup disk part snapshot).1 = some value) :
    (cache.lookup disk part snapshot).2.Filled part snapshot value := by
  obtain ⟨hkept, hseen⟩ := h.lookup disk part hcurrent
  obtain ⟨record, hmemory, hfile, hcontent, hgeneration, hvalue⟩ := record_of_lookup hfound
  have hanswers := Record.answers_iff.mpr ⟨hfile, hcontent, hgeneration⟩
  exact ⟨hkept, ⟨record, live?_eq_some.mpr ⟨hmemory, hanswers⟩, hvalue⟩, hseen⟩

/-- A part that is kept for a current snapshot fills its slot, if all connected modules are seen. -/
lemma filled_keep (part : Part) {snapshot : Snapshot} (value : part.Value)
    (hcurrent : cache.snapshots.get? snapshot.id = some snapshot) (hseen : cache.Seen snapshot.id) :
    (cache.keep part snapshot value).Filled part snapshot value := by
  obtain ⟨hfile, hcontent, hgeneration, -⟩ := cache.base_spec part snapshot
  obtain ⟨hfile', hcontent', hgeneration'⟩ := part.stamp_set value (cache.base part snapshot)
  have hanswers := Record.answers_iff.mpr
    ⟨hfile'.trans hfile, hcontent'.trans hcontent, hgeneration'.trans hgeneration⟩
  exact ⟨hcurrent, ⟨part.set value (cache.base part snapshot),
    live?_eq_some.mpr ⟨Std.ExtTreeMap.getElem?_insert_self, hanswers⟩, part.get?_set _ _⟩, hseen⟩

/-! ### Settled answers -/

/-- Asking again gives this answer: it is that of a filled slot. -/
def Settled (cache : Cache) (answer : Answer) : Prop :=
  ∃ (part : Part) (snapshot : Snapshot) (value : part.Value),
    cache.Filled part snapshot value ∧ answer = World.answerOf cache part snapshot value

/-- There is one settled answer about each part of each module. -/
lemma Settled.eq {answer other : Answer} (h : cache.Settled answer) (h' : cache.Settled other)
    (hpart : answer.part = other.part) (hfile : answer.file = other.file) : answer = other := by
  obtain ⟨part, snapshot, value, hfilled, rfl⟩ := h
  obtain ⟨part', snapshot', value', hfilled', rfl⟩ := h'
  have hpart : part = part' := hpart
  subst hpart
  obtain rfl := hfilled'.eq_snapshot hfilled.current hfile
  obtain rfl := hfilled.eq_value hfilled'
  rfl

/-- An answer stays settled while its slot stays filled, under the same configuration and tool and
at the same generation. -/
lemma Settled.mono {answer : Answer} {after : Cache} (h : cache.Settled answer)
    (hconfig : after.config = cache.config) (htool : after.tool = cache.tool)
    (hfilled : ∀ (part : Part) (snapshot : Snapshot) (value : part.Value),
      cache.Filled part snapshot value → after.Filled part snapshot value ∧
        after.generation snapshot.id = cache.generation snapshot.id) : after.Settled answer := by
  obtain ⟨part, snapshot, value, hbefore, rfl⟩ := h
  obtain ⟨hafter, hgeneration⟩ := hfilled part snapshot value hbefore
  refine ⟨part, snapshot, value, hafter, ?_⟩
  unfold World.answerOf
  rw [hconfig, htool, hgeneration]

end Cache

/-! ### Steady calls -/

/-- The answer was computed, and is about this part of this module. -/
def Served.computes (served : Served) (part : Part) (file : ModuleId) : Bool :=
  served.computed && served.answer.part = part && served.answer.file = file

namespace World

variable {world : World}

/-- A call that changes no text, no import and no configuration: a part is asked for with the
current snapshot, results are stored or collected, or others change the disk. -/
def IsSteady (world : World) : Call → Prop
  | .ask _ snapshot _ => world.cache.snapshots.get? snapshot.id = some snapshot
  | .done | .collect | .edit _ => True
  | _ => False

/-- Several such calls, one after the other. -/
def Steady : World → List Call → Prop
  | _, [] => True
  | world, call :: rest => world.IsSteady call ∧ (world.take call).Steady rest

/-- What a call gives is settled, and no part of a module was computed twice for it. -/
structure Once (world : World) (served : List Served) : Prop where
  /-- The cache is in step. -/
  step : world.cache.InStep
  /-- The answers are settled. -/
  settled : ∀ one ∈ served, world.cache.Settled one.answer
  /-- They were computed once at most. -/
  computed : ∀ part file, served.countP (·.computes part file) ≤ 1

/-- Asking for a part with the current snapshot leaves filled slots filled, at the same
generation. -/
lemma filled_ask (hstep : world.cache.InStep) {asked part : Part} {current snapshot : Snapshot}
    (hcurrent : world.cache.snapshots.get? current.id = some current) (computed : asked.Value)
    {value : part.Value} (h : world.cache.Filled part snapshot value) :
    (world.ask asked current computed).cache.Filled part snapshot value ∧
      (world.ask asked current computed).cache.generation snapshot.id =
        world.cache.generation snapshot.id := by
  refine ⟨?_, (world.generation_ask asked current computed snapshot.id).trans
    (hstep.observe_of_seen h.seen world.disk current.id).1⟩
  have hlookup := h.lookup hstep world.disk asked hcurrent
  unfold World.ask given
  rcases world.cache.answer_cases world.disk asked current (fun _ => (computed, true)) false with
    ⟨found, -, heq⟩ | ⟨hnone, heq⟩
  · rw [heq]
    exact hlookup
  · rw [heq]
    refine hlookup.keep (hstep.lookup world.disk asked hcurrent).1 computed ?_
    -- What is computed was not found, so it is not the part that the filled slot has.
    rintro rfl hid
    obtain rfl := h.eq_snapshot hcurrent hid
    rw [h.lookup_self hstep] at hnone
    cases hnone

/-- Asking for a part with the current snapshot fills its slot. -/
lemma filled_given (hstep : world.cache.InStep) {part : Part} {snapshot : Snapshot}
    (hcurrent : world.cache.snapshots.get? snapshot.id = some snapshot) (value : part.Value) :
    (world.given part snapshot value).2.1.Filled part snapshot
      (world.given part snapshot value).1 := by
  unfold given
  rcases world.cache.answer_cases world.disk part snapshot (fun _ => (value, true)) false with
    ⟨found, hfound, heq⟩ | ⟨-, heq⟩
  · rw [heq]
    exact hstep.filled_of_lookup hcurrent hfound
  · rw [heq]
    obtain ⟨hkept, hseen⟩ := hstep.lookup world.disk part hcurrent
    exact Cache.filled_keep part value hkept hseen

/-- What a filled slot has is not computed again. -/
lemma computed_of_filled (hstep : world.cache.InStep) {part : Part} {snapshot : Snapshot}
    {known : part.Value} (h : world.cache.Filled part snapshot known) (value : part.Value) :
    (world.given part snapshot value).2.2 = false := by
  unfold given
  rcases world.cache.answer_cases world.disk part snapshot (fun _ => (value, true)) false with
    ⟨found, -, heq⟩ | ⟨hnone, -⟩
  · rw [heq]
  · rw [h.lookup_self hstep] at hnone
    cases hnone

namespace Once

variable {served : List Served}

/-- Settled answers stay settled when a part is asked for with the current snapshot. -/
lemma settled_ask (h : world.Once served) {part : Part} {snapshot : Snapshot}
    (hcurrent : world.cache.snapshots.get? snapshot.id = some snapshot) (value : part.Value) :
    ∀ one ∈ served, (world.ask part snapshot value).cache.Settled one.answer := by
  obtain ⟨memory, pending, heq⟩ := world.cache_ask part snapshot value
  have hhears := world.cache.hears_observe world.disk snapshot.id
  intro one hone
  refine (h.settled one hone).mono ?_ ?_ fun _ _ _ => filled_ask h.step hcurrent value
  · rw [heq]
    exact hhears.config
  · rw [heq]
    exact hhears.tool

/-- A part is computed for the first time, if it is computed. -/
lemma countP_of_computed (h : world.Once served) {part : Part} {snapshot : Snapshot}
    (hcurrent : world.cache.snapshots.get? snapshot.id = some snapshot) {value : part.Value}
    (hcomputed : (world.given part snapshot value).2.2 = true) :
    served.countP (·.computes part snapshot.id) = 0 := by
  rw [List.countP_eq_zero]
  intro one hone hcomputes
  unfold Served.computes at hcomputes
  simp only [Bool.and_eq_true, decide_eq_true_eq] at hcomputes
  obtain ⟨⟨-, hpart⟩, hfile⟩ := hcomputes
  obtain ⟨part', snapshot', known, hfilled, hanswer⟩ := h.settled one hone
  rw [hanswer] at hpart hfile
  have hpart : part' = part := hpart
  subst hpart
  obtain rfl := hfilled.eq_snapshot hcurrent hfile.symm
  rw [computed_of_filled h.step hfilled] at hcomputed
  cases hcomputed

/-- Asking for a part with the current snapshot gives a settled answer, and nothing is computed
twice. -/
theorem ask (h : world.Once served) {part : Part} {snapshot : Snapshot}
    (hcurrent : world.cache.snapshots.get? snapshot.id = some snapshot) (value : part.Value) :
    ∃ one, (world.ask part snapshot value).log = world.log ++ [one] ∧
      (world.ask part snapshot value).Once (served ++ [one]) := by
  obtain ⟨memory, pending, heq⟩ := world.cache_ask part snapshot value
  refine ⟨_, rfl, ?_, ?_, ?_⟩
  · rw [heq]
    exact { h.step.observe world.disk snapshot.id with }
  · intro one hone
    rcases List.mem_append.mp hone with hone | hone
    · exact h.settled_ask hcurrent value one hone
    · rw [List.mem_singleton.mp hone]
      exact ⟨part, snapshot, _, filled_given h.step hcurrent value, rfl⟩
  · intro other file
    rw [List.countP_append, List.countP_singleton]
    split_ifs with hcomputes
    · unfold Served.computes at hcomputes
      simp only [Bool.and_eq_true, decide_eq_true_eq] at hcomputes
      obtain ⟨⟨hcomputed, hpart⟩, hfile⟩ := hcomputes
      have hpart : part = other := hpart
      have hfile : snapshot.id = file := hfile
      rw [← hpart, ← hfile, h.countP_of_computed hcurrent hcomputed]
    · exact h.computed other file

/-- What happened so far stays settled, if the cache stays in step, and slots stay filled at the
same generation. -/
lemma replace (h : world.Once served) {after : World} (hstep : after.cache.InStep)
    (hconfig : after.cache.config = world.cache.config)
    (htool : after.cache.tool = world.cache.tool)
    (hfilled : ∀ (part : Part) (snapshot : Snapshot) (value : part.Value),
      world.cache.Filled part snapshot value → after.cache.Filled part snapshot value ∧
        after.cache.generation snapshot.id = world.cache.generation snapshot.id) :
    after.Once served :=
  ⟨hstep, fun one hone => (h.settled one hone).mono hconfig htool hfilled, h.computed⟩

/-- The disk does not matter. -/
lemma withDisk (h : world.Once served) (disk : Disk) (log : List Served) (texts : Nat) :
    (World.mk world.cache disk log texts).Once served :=
  ⟨h.step, h.settled, h.computed⟩

/-- A call that gives no answer adds none. -/
lemma of_silent {call : Call} (h : (world.take call).Once served)
    (hask : ∀ part snapshot value, call ≠ .ask part snapshot value) :
    ∃ later, (world.take call).log = world.log ++ later ∧
      (world.take call).Once (served ++ later) := by
  refine ⟨[], ?_, ?_⟩
  · rw [world.log_take hask, List.append_nil]
  · rw [List.append_nil]
    exact h

/-- After each steady call everything is settled, and nothing was computed twice. -/
theorem take (h : world.Once served) {call : Call} (hcall : world.IsSteady call) :
    ∃ later, (world.take call).log = world.log ++ later ∧
      (world.take call).Once (served ++ later) := by
  cases call with
  | ask part snapshot value =>
    obtain ⟨one, hlog, hone⟩ := h.ask hcall value
    exact ⟨[one], hlog, hone⟩
  | done =>
    obtain ⟨-, hconfig, htool, -⟩ := world.cache.done_frame world.disk
    refine of_silent (h.replace (h.step.done world.disk) hconfig htool fun _ _ _ hfilled => ?_)
      fun _ _ _ => Call.noConfusion
    exact ⟨hfilled.done world.disk, Cache.generation_done _ _ _⟩
  | collect => exact of_silent (h.withDisk _ _ _) fun _ _ _ => Call.noConfusion
  | edit disk => exact of_silent (h.withDisk _ _ _) fun _ _ _ => Call.noConfusion
  | submit path text => exact hcall.elim
  | addImport edge => exact hcall.elim
  | reopen config tool entries => exact hcall.elim
  | clean => exact hcall.elim
  | reconfigure config => exact hcall.elim

/-- After several steady calls as well. -/
theorem run (h : world.Once served) {calls : List Call} (hcalls : world.Steady calls) :
    ∃ later, (world.run calls).log = world.log ++ later ∧
      (world.run calls).Once (served ++ later) := by
  induction calls generalizing world served with
  | nil => exact ⟨[], (List.append_nil _).symm, (List.append_nil served).symm ▸ h⟩
  | cons call rest ih =>
    obtain ⟨now, hnow, honce⟩ := h.take hcalls.1
    obtain ⟨later, hlater, hafter⟩ := ih honce hcalls.2
    refine ⟨now ++ later, ?_, ?_⟩
    · rw [← List.append_assoc, ← hnow]
      exact hlater
    · rw [← List.append_assoc]
      exact hafter

end Once

/-- As long as parts are asked for with current snapshots and no text, import or configuration
changes, each part of each module is computed at most once, and all answers about it are the same:
also if results are stored, collected or taken away from the disk in between. -/
theorem slots_are_computed_once {root : Path} (h : Reachable root world) {calls : List Call}
    (hcalls : world.Steady calls) :
    ∃ later, (world.run calls).log = world.log ++ later ∧
      (∀ part file, later.countP (·.computes part file) ≤ 1) ∧
      ∀ first ∈ later, ∀ second ∈ later, first.answer.part = second.answer.part →
        first.answer.file = second.answer.file → first.answer = second.answer := by
  have hnone : world.Once [] :=
    ⟨h.inStep.cache, fun one hone => absurd hone List.not_mem_nil, fun _ _ => Nat.zero_le 1⟩
  obtain ⟨later, hlog, honce⟩ := hnone.run hcalls
  exact ⟨later, hlog, honce.computed, fun first hfirst second hsecond =>
    (honce.settled first hfirst).eq (honce.settled second hsecond)⟩

/-- A part may be asked for with a current snapshot, and again after results were stored. -/
lemma steady_done {part : Part} {snapshot : Snapshot} {value : part.Value}
    (hfirst : world.cache.snapshots.get? snapshot.id = some snapshot)
    (hkept : (world.ask part snapshot value).cache.snapshots.get? snapshot.id = some snapshot) :
    world.Steady [.ask part snapshot value, .done, .ask part snapshot value] := by
  refine ⟨hfirst, trivial, ?_, trivial⟩
  simp only [IsSteady, World.take, put]
  rw [(Cache.done_frame _ _).2.2.2.2.2.1]
  exact hkept

/-- The output of a module is asked for, results are stored, and it is asked for again. -/
theorem slots_are_computed_once_importing :
    ∃ (calls : List Call) (later : List Served), calls =
        [.ask .output ⟨⟨"a"⟩, "", 1⟩ .nothing, .done, .ask .output ⟨⟨"a"⟩, "", 1⟩ .nothing] ∧
      (importing.run calls).log = importing.log ++ later ∧
      (∀ part file, later.countP (·.computes part file) ≤ 1) ∧
      ∀ first ∈ later, ∀ second ∈ later, first.answer.part = second.answer.part →
        first.answer.file = second.answer.file → first.answer = second.answer := by
  have hfirst : importing.cache.snapshots.get? (Snapshot.mk ⟨"a"⟩ "" 1).id =
      some ⟨⟨"a"⟩, "", 1⟩ := by
    decide +kernel
  have hkept : (importing.ask .output ⟨⟨"a"⟩, "", 1⟩ .nothing).cache.snapshots.get?
      (Snapshot.mk ⟨"a"⟩ "" 1).id = some ⟨⟨"a"⟩, "", 1⟩ := by
    decide +kernel
  have hcalls := steady_done hfirst hkept
  obtain ⟨later, hlater⟩ := slots_are_computed_once reachable_importing hcalls
  exact ⟨_, later, rfl, hlater⟩

end World

end Recompile
