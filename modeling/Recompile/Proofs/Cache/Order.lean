import Recompile.Proofs.Cache.Backed
import Recompile.Proofs.Cache.Commuting

/-!
# Lookups in any order

A lookup reads unobserved modules, and then it reads and replaces the record of one slot
(`Cache.serve`).  What it reads of a slot depends on the slot alone once every module connected to
the slot is seen (`Cache.recordOf_observe`); so two lookups for different parts or modules commute,
and neither changes what the other one gives (`Cache.respond_comm`, `World.outcome_respond`).

Hence the order of texts that are handed in, and of lookups after them, changes neither what any
lookup gives nor what is stored afterwards (`World.order_does_not_matter`).
-/

namespace Recompile

/-! ### Requests -/

/-- Setting two parts commutes. -/
lemma Part.set_comm {part other : Part} (hne : other ≠ part) (value : part.Value)
    (next : other.Value) (record : Record) :
    other.set next (part.set value record) = part.set value (other.set next record) := by
  cases part with
  | output =>
    cases other with
    | output => exact absurd rfl hne
    | findings pass => rfl
  | findings pass =>
    cases other with
    | output => rfl
    | findings later =>
      cases pass <;> cases later <;> first | exact absurd rfl hne | rfl

/-- A part that is asked for, with what computing it gives. -/
structure Request where
  /-- The part. -/
  part : Part
  /-- The snapshot of the module. -/
  snapshot : Snapshot
  /-- What computing the part gives. -/
  value : part.Value

namespace Request

/-- The slot of the record that has the part. -/
def slot (request : Request) : Slot :=
  request.part.slot request.snapshot.id

/-- The call that asks for the part. -/
def call (request : Request) : Call :=
  .ask request.part request.snapshot request.value

/-- The record with the part: what computing gives is added if the record lacks it. -/
def fill (request : Request) (record : Record) : Record :=
  if (request.part.get? record).isSome then record else request.part.set request.value record

/-- Two requests are apart: they are for different parts or for different modules. -/
def Apart (request other : Request) : Prop :=
  (request.part, request.snapshot.id) ≠ (other.part, other.snapshot.id)

variable {request other : Request} {record : Record}

/-- Filling in a part leaves what a record is about. -/
lemma stamp_fill (request : Request) (record : Record) :
    (request.fill record).file = record.file ∧ (request.fill record).content = record.content ∧
      (request.fill record).generation = record.generation := by
  unfold fill
  split_ifs
  · exact ⟨rfl, rfl, rfl⟩
  · exact request.part.stamp_set request.value record

/-- Filling in a part leaves the other parts alone. -/
lemma get?_fill_of_ne (hne : other.part ≠ request.part) :
    other.part.get? (request.fill record) = other.part.get? record := by
  unfold fill
  split_ifs
  · rfl
  · exact Part.get?_set_of_ne hne _ _

/-- Filling in two parts commutes. -/
lemma fill_comm (hne : other.part ≠ request.part) :
    other.fill (request.fill record) = request.fill (other.fill record) := by
  have hother : (other.part.get? (request.fill record)).isSome =
      (other.part.get? record).isSome := by
    rw [get?_fill_of_ne hne]
  have hrequest : (request.part.get? (other.fill record)).isSome =
      (request.part.get? record).isSome := by
    rw [get?_fill_of_ne (Ne.symm hne)]
  unfold fill at hother hrequest ⊢
  rw [hother, hrequest]
  split_ifs
  · rfl
  · rfl
  · rfl
  · exact Part.set_comm hne _ _ _

end Request

namespace Cache

variable {cache after : Cache} {disk : Disk} {request other : Request}

/-! ### The record of a slot -/

/-- The record of a slot for a text at the current generation: the one that is fetched, or else a
blank one. -/
def recordOf (cache : Cache) (disk : Disk) (slot : Slot) (content : Digest) : Record :=
  (cache.fetch disk slot content).1.getD
    (.blank slot.file content (cache.generation slot.file))

/-- It answers questions about the text and the generation. -/
lemma answers_recordOf (cache : Cache) (disk : Disk) (slot : Slot) (content : Digest) :
    (cache.recordOf disk slot content).answers slot.file content (cache.generation slot.file) =
      true := by
  unfold recordOf
  rcases cache.fetch_cases disk slot content with ⟨record, hlive, heq⟩ | ⟨record, hstored, heq⟩ |
    ⟨-, heq⟩
  · rw [heq]
    exact (live?_eq_some.mp hlive).2
  · rw [heq]
    obtain ⟨-, payload, whole, -, -, hanswers, hshelf⟩ := stored?_iff.mp hstored
    obtain ⟨hfile, hcontent, hgeneration⟩ := Record.answers_iff.mp hanswers
    obtain ⟨hfile', hcontent', hgeneration'⟩ := Record.stamp_onShelf? hshelf
    exact Record.answers_iff.mpr ⟨hfile'.trans hfile, hcontent'.trans hcontent,
      hgeneration'.trans hgeneration⟩
  · rw [heq]
    exact Record.answers_iff.mpr ⟨rfl, rfl, rfl⟩

/-- A record in memory that answers is the one. -/
lemma recordOf_of_memory {slot : Slot} {content : Digest} {record : Record}
    (hmemory : cache.memory[slot]? = some record)
    (hanswers : record.answers slot.file content (cache.generation slot.file) = true) :
    cache.recordOf disk slot content = record := by
  unfold recordOf
  rw [fetch_of_live (live?_eq_some.mpr ⟨hmemory, hanswers⟩)]
  rfl

/-- It depends on the slot alone. -/
lemma recordOf_congr {slot : Slot} (hroot : after.root = cache.root)
    (hconfig : after.config = cache.config) (htool : after.tool = cache.tool)
    (hkey : (after.manifest.state slot.file).key? slot.shelf =
      (cache.manifest.state slot.file).key? slot.shelf)
    (hgeneration : after.generation slot.file = cache.generation slot.file)
    (hmemory : after.memory[slot]? = cache.memory[slot]?) (disk : Disk) (content : Digest) :
    after.recordOf disk slot content = cache.recordOf disk slot content := by
  have harchive : after.archive = cache.archive := by
    unfold archive directory
    rw [hroot, hconfig, htool]
  have hstored : ∀ generation, after.stored? disk slot content generation =
      cache.stored? disk slot content generation := by
    intro generation
    unfold stored?
    rw [hkey, hconfig, harchive]
  unfold recordOf fetch live?
  simp only
  rw [hgeneration, hmemory, hstored]
  split
  · rfl
  · split <;> rfl

/-! ### Answering -/

/-- The cache after a part was asked for, once the unobserved modules were read: its slot has the
record with the part, and the slot is pending if the part was computed. -/
def serve (cache : Cache) (disk : Disk) (request : Request) : Cache :=
  let record := cache.recordOf disk request.slot request.snapshot.fingerprint
  { cache with
    memory := cache.memory.insert request.slot (request.fill record)
    pending := if (request.part.get? record).isSome then cache.pending
      else cache.pending.insert request.slot }

/-- The cache after a part was asked for. -/
def respond (disk : Disk) (cache : Cache) (request : Request) : Cache :=
  (cache.observe disk request.snapshot.id).serve disk request

/-- Putting a record where it is changes nothing. -/
lemma insert_self {memory : Std.ExtTreeMap Slot Record} {slot : Slot} {record : Record}
    (h : memory[slot]? = some record) : memory.insert slot record = memory := by
  refine Std.ExtTreeMap.ext_getElem? fun place => ?_
  rw [Std.ExtTreeMap.getElem?_insert]
  split_ifs with hplace
  · rw [← Std.LawfulEqOrd.eq_of_compare hplace, h]
  · rfl

/-- Of two records that are put into a slot the last one stays. -/
lemma insert_insert (memory : Std.ExtTreeMap Slot Record) (slot : Slot) (record last : Record) :
    (memory.insert slot record).insert slot last = memory.insert slot last := by
  refine Std.ExtTreeMap.ext_getElem? fun place => ?_
  simp only [Std.ExtTreeMap.getElem?_insert]
  split_ifs <;> rfl

/-- Putting records into two slots commutes. -/
lemma insert_comm (memory : Std.ExtTreeMap Slot Record) {slot other : Slot} (hne : slot ≠ other)
    (record next : Record) :
    (memory.insert slot record).insert other next =
      (memory.insert other next).insert slot record := by
  refine Std.ExtTreeMap.ext_getElem? fun place => ?_
  simp only [Std.ExtTreeMap.getElem?_insert, Std.LawfulEqCmp.compare_eq_iff_eq]
  split_ifs with hother hslot
  · exact absurd (hslot.trans hother.symm) hne
  all_goals rfl

/-- Making two slots pending commutes. -/
lemma insert_pending_comm (pending : Std.ExtTreeSet Slot) (slot other : Slot) :
    (pending.insert slot).insert other = (pending.insert other).insert slot := by
  refine Std.ExtTreeSet.ext_mem fun place => ?_
  simp only [Std.ExtTreeSet.mem_insert]
  tauto

/-- Keeping a part keeps it in the record for the text and the generation. -/
lemma keep_eq (cache : Cache) (part : Part) (snapshot : Snapshot) (value : part.Value) :
    cache.keep part snapshot value =
      { cache with
        memory := cache.memory.insert (part.slot snapshot.id)
          (part.set value (cache.base part snapshot))
        pending := cache.pending.insert (part.slot snapshot.id) } := rfl

/-- The record of a slot is fetched into memory, or it is blank. -/
lemma fetch_recordOf (cache : Cache) (disk : Disk) (slot : Slot) (content : Digest) :
    (cache.fetch disk slot content =
        (some (cache.recordOf disk slot content),
          { cache with memory := cache.memory.insert slot (cache.recordOf disk slot content) })) ∨
      cache.fetch disk slot content = (none, cache) ∧
        cache.live? slot content (cache.generation slot.file) = none ∧
        cache.recordOf disk slot content =
          .blank slot.file content (cache.generation slot.file) := by
  unfold recordOf
  rcases cache.fetch_cases disk slot content with ⟨record, hlive, heq⟩ | ⟨record, -, heq⟩ |
    ⟨hnone, heq⟩
  · rw [heq, Option.getD_some, insert_self (live?_eq_some.mp hlive).1]
    exact .inl rfl
  · rw [heq]
    exact .inl rfl
  · rw [heq]
    exact .inr ⟨rfl, hnone, rfl⟩

/-- Once the unobserved modules were read, the part is found in the record of the slot, or it is
computed and kept in that record. -/
lemma serve_cases (cache : Cache) (disk : Disk) (request : Request) {record : Record}
    (hrecord : record = cache.recordOf disk request.slot request.snapshot.fingerprint) :
    (cache.fetch disk request.slot request.snapshot.fingerprint).1.bind request.part.get? =
        request.part.get? record ∧
      ((request.part.get? record).isSome → cache.serve disk request =
        (cache.fetch disk request.slot request.snapshot.fingerprint).2) ∧
      (request.part.get? record = none → cache.serve disk request =
        (cache.fetch disk request.slot request.snapshot.fingerprint).2.keep request.part
          request.snapshot request.value) := by
  have hanswers := cache.answers_recordOf disk request.slot request.snapshot.fingerprint
  unfold serve Request.fill
  simp only [← hrecord] at hanswers ⊢
  rcases cache.fetch_recordOf disk request.slot request.snapshot.fingerprint with
    heq | ⟨heq, hnone, hblank⟩
  · rw [← hrecord] at heq
    have hbase : ({ cache with memory := cache.memory.insert request.slot record } : Cache).base
        request.part request.snapshot = record := by
      unfold base
      exact congrArg (Option.getD · _)
        (live?_eq_some.mpr ⟨Std.ExtTreeMap.getElem?_insert_self, hanswers⟩)
    rw [heq]
    refine ⟨rfl, fun hsome => by simp only [hsome, if_true], fun hmissing => ?_⟩
    rw [keep_eq, hbase, hmissing]
    exact congrArg (fun memory : Std.ExtTreeMap Slot Record =>
      { cache with memory, pending := cache.pending.insert request.slot })
      (insert_insert _ _ _ _).symm
  · have hmissing : request.part.get? record = none := by
      rw [hrecord, hblank]
      cases request.part <;> rfl
    have hbase : cache.base request.part request.snapshot = record := by
      rw [hrecord, hblank]
      unfold base
      exact congrArg (Option.getD · _) hnone
    rw [heq, hmissing, keep_eq, hbase]
    exact ⟨rfl, fun hsome => Bool.noConfusion hsome, fun _ => rfl⟩

/-- What asking for a part gives: the part of the record of the slot, or what computing gives. -/
lemma answer_eq (cache : Cache) (disk : Disk) (request : Request) {record : Record}
    (hrecord : record = (cache.observe disk request.snapshot.id).recordOf disk request.slot
      request.snapshot.fingerprint) :
    cache.answer disk request.part request.snapshot (fun _ => (request.value, true)) false =
      ((request.part.get? record).getD request.value, cache.respond disk request,
        (request.part.get? record).isNone) := by
  obtain ⟨hfound, hknown, hcomputed⟩ :=
    (cache.observe disk request.snapshot.id).serve_cases disk request hrecord
  have hlookup : cache.lookup disk request.part request.snapshot =
      (request.part.get? record, ((cache.observe disk request.snapshot.id).fetch disk request.slot
        request.snapshot.fingerprint).2) := by
    rw [← hfound]
    rfl
  unfold answer respond
  rw [hlookup]
  cases hpart : request.part.get? record with
  | some value =>
    rw [hknown (hpart ▸ rfl)]
    rfl
  | none =>
    rw [hcomputed hpart]
    rfl

/-! ### Two requests -/

/-- A request is made with the current snapshot of its module. -/
def Expects (cache : Cache) (request : Request) : Prop :=
  cache.snapshots.get? request.snapshot.id = some request.snapshot

/-- Answering a request leaves the records of other slots. -/
lemma recordOf_serve_of_ne (hslot : request.slot ≠ other.slot) (content : Digest) :
    (cache.serve disk request).recordOf disk other.slot content =
      cache.recordOf disk other.slot content := by
  refine recordOf_congr ?_ ?_ ?_ ?_ ?_ ?_ disk content
  · rfl
  · rfl
  · rfl
  · rfl
  · rfl
  · exact cache.getElem?_insert_of_ne hslot _

/-- Answering a request fills in its part. -/
lemma recordOf_serve_self (cache : Cache) (disk : Disk) (request : Request) :
    (cache.serve disk request).recordOf disk request.slot request.snapshot.fingerprint =
      request.fill (cache.recordOf disk request.slot request.snapshot.fingerprint) := by
  refine recordOf_of_memory Std.ExtTreeMap.getElem?_insert_self ?_
  have hanswers := Record.answers_iff.mp
    (cache.answers_recordOf disk request.slot request.snapshot.fingerprint)
  obtain ⟨hfile, hcontent, hgeneration⟩ :=
    request.stamp_fill (cache.recordOf disk request.slot request.snapshot.fingerprint)
  rw [← hfile, ← hcontent, ← hgeneration] at hanswers
  exact Record.answers_iff.mpr hanswers

/-- Two requests for one slot are made with one snapshot. -/
lemma Expects.eq_snapshot (h : cache.Expects request) (hother : cache.Expects other)
    (hslot : request.slot = other.slot) : request.snapshot = other.snapshot := by
  have hid : request.snapshot.id = other.snapshot.id := (Slot.mk.inj hslot).2
  unfold Expects at h hother
  rw [hid, hother] at h
  exact (Option.some.inj h).symm

/-- Two requests that are apart and for one slot are for different parts. -/
lemma part_ne_of_apart (hapart : request.Apart other) (hslot : request.slot = other.slot) :
    other.part ≠ request.part := by
  intro hpart
  exact hapart (Prod.ext hpart.symm (Slot.mk.inj hslot).2)

/-- Answering a request leaves the parts of requests that are apart. -/
lemma get?_recordOf_serve (hrequest : cache.Expects request) (hother : cache.Expects other)
    (hapart : request.Apart other) (disk : Disk) :
    other.part.get? ((cache.serve disk request).recordOf disk other.slot
        other.snapshot.fingerprint) =
      other.part.get? (cache.recordOf disk other.slot other.snapshot.fingerprint) := by
  by_cases hslot : request.slot = other.slot
  · rw [← hslot, ← hrequest.eq_snapshot hother hslot, recordOf_serve_self,
      Request.get?_fill_of_ne (part_ne_of_apart hapart hslot)]
  · rw [recordOf_serve_of_ne hslot]

/-- Answering two requests that are apart commutes. -/
theorem serve_comm (hrequest : cache.Expects request) (hother : cache.Expects other)
    (hapart : request.Apart other) :
    (cache.serve disk request).serve disk other = (cache.serve disk other).serve disk request := by
  have hboth : ∀ first second : Request, ((cache.serve disk first).serve disk second).memory =
      (cache.memory.insert first.slot (first.fill
        (cache.recordOf disk first.slot first.snapshot.fingerprint))).insert second.slot
        (second.fill ((cache.serve disk first).recordOf disk second.slot
          second.snapshot.fingerprint)) := fun _ _ => rfl
  have hmemory : ((cache.serve disk request).serve disk other).memory =
      ((cache.serve disk other).serve disk request).memory := by
    rw [hboth, hboth]
    by_cases hslot : request.slot = other.slot
    · have hsnapshot := hrequest.eq_snapshot hother hslot
      have hself := cache.recordOf_serve_self disk request
      have hself' := cache.recordOf_serve_self disk other
      rw [← hslot, ← hsnapshot] at hself' ⊢
      rw [hself, hself', insert_insert, insert_insert,
        Request.fill_comm (part_ne_of_apart hapart hslot)]
    · rw [recordOf_serve_of_ne hslot, recordOf_serve_of_ne (Ne.symm hslot), insert_comm _ hslot]
  have hpending : ((cache.serve disk request).serve disk other).pending =
      ((cache.serve disk other).serve disk request).pending := by
    have hfirst := get?_recordOf_serve hrequest hother hapart disk
    have hsecond := get?_recordOf_serve hother hrequest (Ne.symm hapart) disk
    unfold serve at hfirst hsecond ⊢
    simp only at hfirst hsecond ⊢
    rw [hfirst, hsecond]
    split_ifs
    · rfl
    · rfl
    · rfl
    · exact insert_pending_comm _ _ _
  change ({ cache with
      memory := ((cache.serve disk request).serve disk other).memory
      pending := ((cache.serve disk request).serve disk other).pending } : Cache) =
    { cache with
      memory := ((cache.serve disk other).serve disk request).memory
      pending := ((cache.serve disk other).serve disk request).pending }
  rw [hmemory, hpending]

/-- Recording a text neither reads nor changes the records in memory. -/
lemma recordContent_memory (cache : Cache) (memory : Std.ExtTreeMap Slot Record)
    (pending : Std.ExtTreeSet Slot) (id : ModuleId) (content : Digest) :
    ({ cache with memory, pending } : Cache).recordContent id content =
      { cache.recordContent id content with memory, pending } := by
  unfold recordContent
  simp only
  split_ifs <;> rfl

/-- Nor does reading an unobserved module. -/
lemma observeOne_memory (disk : Disk) (cache : Cache) (memory : Std.ExtTreeMap Slot Record)
    (pending : Std.ExtTreeSet Slot) (id : ModuleId) :
    observeOne disk { cache with memory, pending } id =
      { observeOne disk cache id with memory, pending } := by
  unfold observeOne
  simp only
  split
  · rfl
  · rename_i update snapshots _
    exact recordContent_memory { cache with snapshots, unobserved := cache.unobserved.erase id }
      memory pending _ _

/-- Nor does reading several ones. -/
lemma observe_memory (cache : Cache) (disk : Disk) (memory : Std.ExtTreeMap Slot Record)
    (pending : Std.ExtTreeSet Slot) (id : ModuleId) :
    ({ cache with memory, pending } : Cache).observe disk id =
      { cache.observe disk id with memory, pending } := by
  rw [observe_eq, observe_eq]
  exact List.foldl_hom (fun cache : Cache => ({ cache with memory, pending } : Cache))
    fun cache read => observeOne_memory disk cache memory pending read

/-- What is read before another lookup leaves the record of a slot whose connected modules are all
seen. -/
lemma InStep.recordOf_observe (h : cache.InStep) {slot : Slot} (hseen : cache.Seen slot.file)
    (disk : Disk) (id : ModuleId) (content : Digest) :
    (cache.observe disk id).recordOf disk slot content = cache.recordOf disk slot content := by
  have hhears := cache.hears_observe disk id
  refine recordOf_congr hhears.root hhears.config hhears.tool ?_
    (h.observe_of_seen hseen disk id).1 (by rw [hhears.memory]) disk content
  exact hhears.key _ _

/-- So answering a request commutes with it. -/
lemma InStep.observe_serve (h : cache.InStep) (hseen : cache.Seen request.snapshot.id)
    (disk : Disk) (id : ModuleId) :
    (cache.serve disk request).observe disk id = (cache.observe disk id).serve disk request := by
  unfold serve
  rw [observe_memory, h.recordOf_observe hseen disk id, (cache.hears_observe disk id).memory,
    (cache.hears_observe disk id).pending]

namespace InStep

/-- Answering a request leaves a cache in step. -/
lemma respond (h : cache.InStep) (disk : Disk) (request : Request) :
    (Cache.respond disk cache request).InStep :=
  have hobserve := h.observe disk request.snapshot.id
  ⟨hobserve.named, hobserve.normal, hobserve.manifest, hobserve.recorded, hobserve.unobserved⟩

/-- It leaves snapshots current. -/
lemma expects_respond (h : cache.InStep) (hother : cache.Expects other) (disk : Disk)
    (request : Request) : (Cache.respond disk cache request).Expects other :=
  h.get?_observe hother request.snapshot.id

/-- After a request was answered, reading for another one and answering the first one commute. -/
lemma observe_respond (h : cache.InStep) (hrequest : cache.Expects request) (disk : Disk)
    (id : ModuleId) :
    (Cache.respond disk cache request).observe disk id =
      ((cache.observe disk request.snapshot.id).observe disk id).serve disk request :=
  (h.observe disk _).observe_serve (h.seen_of_current hrequest) disk id

/-- The order of two requests that are apart does not matter. -/
theorem respond_comm (h : cache.InStep) (hrequest : cache.Expects request)
    (hother : cache.Expects other) (hapart : request.Apart other) (disk : Disk) :
    Cache.respond disk (Cache.respond disk cache request) other =
      Cache.respond disk (Cache.respond disk cache other) request := by
  have hexpects : ∀ asked : Request, cache.Expects asked →
      ((cache.observe disk other.snapshot.id).observe disk request.snapshot.id).Expects asked :=
    fun asked hasked => (h.observe disk _).get?_observe (h.get?_observe hasked _) _
  calc Cache.respond disk (Cache.respond disk cache request) other
      = (((cache.observe disk request.snapshot.id).observe disk other.snapshot.id).serve disk
          request).serve disk other := congrArg (Cache.serve · disk other)
            (h.observe_respond hrequest disk other.snapshot.id)
    _ = (((cache.observe disk other.snapshot.id).observe disk request.snapshot.id).serve disk
          request).serve disk other := by rw [h.observe_comm]
    _ = (((cache.observe disk other.snapshot.id).observe disk request.snapshot.id).serve disk
          other).serve disk request :=
        serve_comm (hexpects request hrequest) (hexpects other hother) hapart
    _ = Cache.respond disk (Cache.respond disk cache other) request :=
        congrArg (Cache.serve · disk request)
          (h.observe_respond hother disk request.snapshot.id).symm

/-- The order of several requests that are apart does not matter. -/
theorem foldl_respond_perm (h : cache.InStep) (disk : Disk) {requests others : List Request}
    (hperm : requests.Perm others) (hexpects : ∀ request ∈ requests, cache.Expects request)
    (hapart : requests.Pairwise Request.Apart) :
    requests.foldl (Cache.respond disk) cache = others.foldl (Cache.respond disk) cache := by
  induction hperm generalizing cache with
  | nil => rfl
  | cons request _ ih =>
    exact ih (h.respond disk request)
      (fun other hother =>
        h.expects_respond (hexpects other (List.mem_cons_of_mem _ hother)) disk request)
      (List.pairwise_cons.mp hapart).2
  | swap request other rest =>
    have hfirst := hexpects other List.mem_cons_self
    have hsecond := hexpects request (List.mem_cons_of_mem _ List.mem_cons_self)
    have hboth := (List.pairwise_cons.mp hapart).1 request List.mem_cons_self
    simp only [List.foldl_cons]
    rw [h.respond_comm hfirst hsecond hboth disk]
  | trans hfirst _ ih ih' =>
    exact (ih h hexpects hapart).trans
      (ih' h (fun request hrequest => hexpects request (hfirst.mem_iff.mpr hrequest))
        (hfirst.pairwise hapart Ne.symm))

end InStep

end Cache

/-! ### Worlds -/

namespace World

variable {world : World} {request other : Request}

/-- What asking for a part adds to the log. -/
def outcome (world : World) (request : Request) : Served :=
  ⟨answerOf (world.given request.part request.snapshot request.value).2.1 request.part
    request.snapshot (world.given request.part request.snapshot request.value).1,
    (world.given request.part request.snapshot request.value).2.2⟩

/-- An answer is about the configuration, the tool and the generation of a cache. -/
lemma answerOf_congr {cache after : Cache} {part : Part} {snapshot : Snapshot}
    (hconfig : after.config = cache.config) (htool : after.tool = cache.tool)
    (hgeneration : after.generation snapshot.id = cache.generation snapshot.id)
    (value : part.Value) :
    answerOf after part snapshot value = answerOf cache part snapshot value := by
  unfold answerOf
  rw [hconfig, htool, hgeneration]

/-- It is about the record of the slot after the unobserved modules were read. -/
lemma outcome_eq (world : World) (request : Request) {seen : Cache}
    {found : Option request.part.Value}
    (hseen : seen = world.cache.observe world.disk request.snapshot.id)
    (hfound : found = request.part.get? (seen.recordOf world.disk request.slot
      request.snapshot.fingerprint)) :
    world.outcome request =
      ⟨answerOf seen request.part request.snapshot (found.getD request.value), found.isNone⟩ := by
  subst hseen hfound
  unfold outcome given
  rw [Cache.answer_eq _ _ request rfl]
  rfl

/-- Asking for a part answers the request. -/
lemma take_call (world : World) (request : Request) :
    (world.take request.call).cache = Cache.respond world.disk world.cache request ∧
      (world.take request.call).disk = world.disk ∧
      (world.take request.call).log = world.log ++ [world.outcome request] := by
  refine ⟨?_, rfl, rfl⟩
  simp only [Request.call, World.take, World.ask, given]
  rw [Cache.answer_eq _ _ request rfl]

/-- Asking for a part changes nothing about what a request that is apart gives. -/
theorem outcome_take_call (hstep : world.cache.InStep) (hrequest : world.cache.Expects request)
    (hother : world.cache.Expects other) (hapart : request.Apart other) :
    (world.take request.call).outcome other = world.outcome other := by
  obtain ⟨hcache, hdisk, -⟩ := world.take_call request
  obtain ⟨seen, hseen⟩ : ∃ seen, seen = world.cache.observe world.disk other.snapshot.id :=
    ⟨_, rfl⟩
  -- Reading for the first request changes nothing that is about the other one.
  have hstepSeen : seen.InStep := hseen ▸ hstep.observe world.disk other.snapshot.id
  have hseenOther : seen.Seen other.snapshot.id := hseen ▸ hstep.seen_of_current hother
  have hhears := seen.hears_observe world.disk request.snapshot.id
  have hobserve : (world.take request.call).cache.observe (world.take request.call).disk
      other.snapshot.id = (seen.observe world.disk request.snapshot.id).serve world.disk
        request := by
    rw [hcache, hdisk, hstep.observe_respond hrequest, hstep.observe_comm, hseen]
  have hexpects : ∀ asked : Request, world.cache.Expects asked →
      (seen.observe world.disk request.snapshot.id).Expects asked := fun asked hasked =>
    hstepSeen.get?_observe (hseen ▸ hstep.get?_observe hasked other.snapshot.id) _
  have hfound : other.part.get? (seen.recordOf world.disk other.slot other.snapshot.fingerprint) =
      other.part.get? (((seen.observe world.disk request.snapshot.id).serve world.disk
        request).recordOf (world.take request.call).disk other.slot
        other.snapshot.fingerprint) := by
    rw [hdisk, Cache.get?_recordOf_serve (hexpects request hrequest) (hexpects other hother) hapart,
      hstepSeen.recordOf_observe hseenOther]
  rw [outcome_eq (world.take request.call) other hobserve.symm hfound,
    outcome_eq world other hseen rfl]
  exact congrArg (Served.mk · _) (answerOf_congr hhears.config hhears.tool
    (hstepSeen.observe_of_seen hseenOther world.disk request.snapshot.id).1 _)

/-- Asking for parts that are apart answers one request after the other, and each of them as if it
was the first one. -/
theorem run_requests (hstep : world.cache.InStep) {requests : List Request}
    (hexpects : ∀ request ∈ requests, world.cache.Expects request)
    (hapart : requests.Pairwise Request.Apart) :
    (world.run (requests.map Request.call)).cache =
        requests.foldl (Cache.respond world.disk) world.cache ∧
      (world.run (requests.map Request.call)).disk = world.disk ∧
      (world.run (requests.map Request.call)).log =
        world.log ++ requests.map world.outcome := by
  induction requests generalizing world with
  | nil => exact ⟨rfl, rfl, (List.append_nil _).symm⟩
  | cons request rest ih =>
    obtain ⟨hcache, hdisk, hlog⟩ := world.take_call request
    have hfirst := hexpects request List.mem_cons_self
    obtain ⟨hothers, hrest⟩ := List.pairwise_cons.mp hapart
    have hlater := fun other hother => hexpects other (List.mem_cons_of_mem request hother)
    have houtcomes : rest.map (world.take request.call).outcome = rest.map world.outcome :=
      List.map_congr_left fun other hother =>
        outcome_take_call hstep hfirst (hlater other hother) (hothers other hother)
    have hstep' : (world.take request.call).cache.InStep :=
      hcache ▸ hstep.respond world.disk request
    obtain ⟨hcaches, hdisks, hlogs⟩ := ih hstep'
      (fun other hother => hcache ▸ hstep.expects_respond (hlater other hother) world.disk request)
      hrest
    rw [hdisk, hcache] at hcaches
    rw [hlog, houtcomes, List.append_assoc] at hlogs
    exact ⟨hcaches, hdisks.trans hdisk, hlogs⟩

/-- Handing in the text of a file. -/
def submitting (entry : String × String) : Call :=
  .submit entry.1 entry.2

/-- The order in which the texts of different modules are handed in does not matter. -/
theorem run_submitting_perm (world : World) {texts others : List (String × String)}
    (hperm : texts.Perm others)
    (hfiles : (texts.map fun entry => ModuleId.ofPath entry.1).Nodup) :
    world.run (texts.map submitting) = world.run (others.map submitting) := by
  unfold run
  rw [List.foldl_map, List.foldl_map]
  refine hperm.foldl_eq' (fun entry hentry next hnext world => ?_) world
  by_cases hsame : entry = next
  · rw [hsame]
  have hne : ModuleId.ofPath entry.1 ≠ ModuleId.ofPath next.1 := fun heq =>
    hsame (List.inj_on_of_nodup_map hfiles hentry hnext heq)
  simp only [submitting, World.take]
  rw [Cache.submit_comm _ hne]

/-- Handing in texts may always happen, and nothing is answered then. -/
lemma Reachable.run_submitting {root : Path} (h : Reachable root world)
    (texts : List (String × String)) :
    Reachable root (world.run (texts.map submitting)) ∧
      (world.run (texts.map submitting)).log = world.log := by
  induction texts generalizing world with
  | nil => exact ⟨h, rfl⟩
  | cons entry rest ih =>
    have hcall : world.Allows (submitting entry) := trivial
    exact ih (h.take hcall)

/-- Texts are handed in, each of another module, and then parts are asked for with the snapshots
that are current, each of them once.  Whatever the order of the texts and of the requests is, every
request gives what it would give if it was the first one, whether that is computed or not, and the
cache and the disk are the same afterwards, also after the results were stored. -/
theorem order_does_not_matter {root : Path} (h : Reachable root world)
    {texts others : List (String × String)} (htexts : texts.Perm others)
    (hfiles : (texts.map fun entry => ModuleId.ofPath entry.1).Nodup)
    {requests again : List Request} (hrequests : requests.Perm again)
    (honce : (requests.map fun request => (request.part, request.snapshot.id)).Nodup)
    {submitted first second : World} (hsubmitted : submitted = world.run (texts.map submitting))
    (hcurrent : ∀ request ∈ requests, submitted.cache.Expects request)
    (hfirst : first = world.run (texts.map submitting ++ requests.map Request.call))
    (hsecond : second = world.run (others.map submitting ++ again.map Request.call)) :
    (first.log = world.log ++ requests.map submitted.outcome ∧
        second.log = world.log ++ again.map submitted.outcome) ∧
      (first.cache = second.cache ∧ first.disk = second.disk) ∧
      (first.take .done).cache = (second.take .done).cache ∧
      (first.take .done).disk = (second.take .done).disk := by
  obtain ⟨hreachable, hlog⟩ := h.run_submitting texts
  rw [← hsubmitted] at hreachable hlog
  have hapart : requests.Pairwise Request.Apart := by
    unfold List.Nodup at honce
    rwa [List.pairwise_map] at honce
  have hothers : ∀ request ∈ again, submitted.cache.Expects request := fun request hmem =>
    hcurrent request (hrequests.mem_iff.mpr hmem)
  have hfirst' : first = submitted.run (requests.map Request.call) := by
    rw [hfirst, hsubmitted]
    exact List.foldl_append
  have hsecond' : second = submitted.run (again.map Request.call) := by
    rw [hsecond, hsubmitted, run_submitting_perm world htexts hfiles]
    exact List.foldl_append
  obtain ⟨hcache, hdisk, hlogs⟩ := run_requests hreachable.inStep.cache hcurrent hapart
  obtain ⟨hcache', hdisk', hlogs'⟩ :=
    run_requests hreachable.inStep.cache hothers (hrequests.pairwise hapart Ne.symm)
  rw [← hfirst'] at hcache hdisk hlogs
  rw [← hsecond'] at hcache' hdisk' hlogs'
  have hcaches : first.cache = second.cache := by
    rw [hcache, hcache']
    exact hreachable.inStep.cache.foldl_respond_perm _ hrequests hcurrent hapart
  have hdisks : first.disk = second.disk := hdisk.trans hdisk'.symm
  refine ⟨⟨hlog ▸ hlogs, hlog ▸ hlogs'⟩, ⟨hcaches, hdisks⟩, ?_⟩
  simp only [World.take, put, hcaches, hdisks]
  exact ⟨trivial, trivial⟩

/-- Two texts are handed in and two parts of one of them are asked for, both times in either
order. -/
theorem order_does_not_matter_importing :
    ∃ first second : World,
      first = importing.run ([("a", "x"), ("c", "")].map submitting ++
        [⟨.output, ⟨⟨"a"⟩, "x", 2⟩, .nothing⟩,
          ⟨.findings .meaning, ⟨⟨"a"⟩, "x", 2⟩, []⟩].map Request.call) ∧
      second = importing.run ([("c", ""), ("a", "x")].map submitting ++
        [⟨.findings .meaning, ⟨⟨"a"⟩, "x", 2⟩, []⟩,
          ⟨.output, ⟨⟨"a"⟩, "x", 2⟩, .nothing⟩].map Request.call) ∧
      first.cache = second.cache ∧ (first.take .done).disk = (second.take .done).disk := by
  have hfiles : ([("a", "x"), ("c", "")].map fun entry : String × String =>
      ModuleId.ofPath entry.1).Nodup := by
    decide +kernel
  have honce : ([⟨.output, ⟨⟨"a"⟩, "x", 2⟩, .nothing⟩,
      ⟨.findings .meaning, ⟨⟨"a"⟩, "x", 2⟩, []⟩].map fun request : Request =>
        (request.part, request.snapshot.id)).Nodup := by
    decide
  have hsnapshot : (importing.run ([("a", "x"), ("c", "")].map submitting)).cache.snapshots.get?
      ⟨"a"⟩ = some ⟨⟨"a"⟩, "x", 2⟩ := by
    decide +kernel
  have hcurrent : ∀ request ∈ [(⟨.output, ⟨⟨"a"⟩, "x", 2⟩, .nothing⟩ : Request),
      ⟨.findings .meaning, ⟨⟨"a"⟩, "x", 2⟩, []⟩],
      (importing.run ([("a", "x"), ("c", "")].map submitting)).cache.Expects request := by
    intro request hrequest
    rcases List.mem_pair.mp hrequest with rfl | rfl
    · exact hsnapshot
    · exact hsnapshot
  obtain ⟨-, ⟨hcache, -⟩, -, hdisk⟩ := order_does_not_matter reachable_importing
    (List.Perm.swap _ _ _) hfiles (List.Perm.swap _ _ _) honce rfl hcurrent rfl rfl
  exact ⟨_, _, rfl, rfl, hcache, hdisk⟩

end World

end Recompile
