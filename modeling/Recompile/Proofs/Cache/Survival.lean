import Recompile.Proofs.Cache.Once
import Recompile.Proofs.Cache.Tended

/-!
# Results over restarts

A value of a part of a module is held if it is stored and nothing in memory stands against it
(`Cache.Holds`); then a lookup gives it without computing it (`World.given_of_holds`).  It is
retained if nothing in the manifest stands against it either (`Cache.Retains`).  After a flush that
did not fail, a process that opens the namespace retains everything that was live in the one before
(`World.Tended.retains_reopen`), since nothing is pending and everything else is backed by the
archive.

It goes on retaining it while texts are handed in, parts are asked for and others change the disk,
as long as every connected module is heard of with its recorded text or is not heard of and cannot
be read (`World.results_survive_restart`).
-/

namespace Recompile

/-! ### What a process goes on finding -/

namespace Cache

variable {cache : Cache} {disk : Disk}

/-- A value is found for a part of a module with a text: it is stored, and a record in memory has it
if it answers. -/
structure Holds (cache : Cache) (disk : Disk) (part : Part) (snapshot : Snapshot)
    (value : part.Value) : Prop where
  /-- The value is stored. -/
  stored : ∃ record, cache.stored? disk (part.slot snapshot.id) snapshot.fingerprint
    (cache.generation snapshot.id) = some record ∧ part.get? record = some value
  /-- What is in memory has it. -/
  live : ∀ record, cache.live? (part.slot snapshot.id) snapshot.fingerprint
    (cache.generation snapshot.id) = some record → part.get? record = some value

/-- A value is found, and no other text is recorded of the module. -/
structure Retains (cache : Cache) (disk : Disk) (part : Part) (snapshot : Snapshot)
    (value : part.Value) : Prop extends cache.Holds disk part snapshot value where
  /-- No other text is recorded. -/
  same : ¬ cache.Differs snapshot.id snapshot.fingerprint

namespace Holds

variable {part : Part} {snapshot : Snapshot} {value : part.Value}

/-- Hearing of texts leaves what is found, if the generation stays. -/
lemma hears {count : Nat} {after : Cache} (h : cache.Holds disk part snapshot value)
    (hhears : Hears count cache after)
    (hgeneration : after.generation snapshot.id = cache.generation snapshot.id) :
    after.Holds disk part snapshot value where
  stored := by
    obtain ⟨record, hstored, hvalue⟩ := h.stored
    rw [hgeneration]
    refine ⟨record, stored?_mono hhears.root hhears.config hhears.tool (fun hkey => ?_)
      (fun _ _ _ => id) hstored, hvalue⟩
    rw [hhears.key]
    exact hkey
  live := by
    rw [hgeneration, live?_congr hhears.memory]
    exact h.live

/-- The memory may change, if what is in it has the value. -/
lemma replace (h : cache.Holds disk part snapshot value) {memory : Std.ExtTreeMap Slot Record}
    {pending : Std.ExtTreeSet Slot}
    (hmemory : ∀ record, memory[part.slot snapshot.id]? = some record →
      record.content = snapshot.fingerprint → cache.memory[part.slot snapshot.id]? = some record ∨
        part.get? record = some value) :
    ({ cache with memory, pending } : Cache).Holds disk part snapshot value where
  stored := by
    have hframe : ({ cache with memory, pending } : Cache).stored? = cache.stored? :=
      stored?_frame rfl rfl rfl rfl
    rw [hframe]
    exact h.stored
  live record hlive := by
    obtain ⟨hrecord, hanswers⟩ := live?_eq_some.mp hlive
    rcases hmemory record hrecord (Record.answers_iff.mp hanswers).2.1 with hold | hvalue
    · exact h.live record (live?_eq_some.mpr ⟨hold, hanswers⟩)
    · exact hvalue

/-- The value is fetched, and then it is in memory. -/
lemma fetch_self (h : cache.Holds disk part snapshot value) :
    ∃ record, (cache.fetch disk (part.slot snapshot.id) snapshot.fingerprint).1 = some record ∧
      part.get? record = some value ∧
      (cache.fetch disk (part.slot snapshot.id) snapshot.fingerprint).2.live?
        (part.slot snapshot.id) snapshot.fingerprint (cache.generation snapshot.id) =
        some record := by
  obtain ⟨known, hknown, hvalue⟩ := h.stored
  rcases cache.fetch_cases disk (part.slot snapshot.id) snapshot.fingerprint with
    ⟨record, hlive, heq⟩ | ⟨record, hstored, heq⟩ | ⟨hnone, heq⟩
  · rw [heq]
    exact ⟨record, rfl, h.live record hlive, hlive⟩
  · obtain rfl := Option.some.inj (hstored.symm.trans hknown)
    obtain ⟨-, payload, whole, -, -, hanswers, hshelf⟩ := stored?_iff.mp hstored
    obtain ⟨hfile, hcontent, hgeneration⟩ := Record.answers_iff.mp hanswers
    obtain ⟨hfile', hcontent', hgeneration'⟩ := Record.stamp_onShelf? hshelf
    rw [heq]
    exact ⟨record, rfl, hvalue, live?_eq_some.mpr ⟨Std.ExtTreeMap.getElem?_insert_self,
      Record.answers_iff.mpr ⟨hfile'.trans hfile, hcontent'.trans hcontent,
        hgeneration'.trans hgeneration⟩⟩⟩
  · unfold Cache.fetch at heq
    have hslot : (part.slot snapshot.id).file = snapshot.id := rfl
    simp only [hslot] at heq hnone
    rw [hnone, hknown] at heq
    cases heq

/-- Fetching a record leaves what is found. -/
lemma fetch (h : cache.Holds disk part snapshot value) (slot : Slot) (content : Digest) :
    (cache.fetch disk slot content).2.Holds disk part snapshot value := by
  rcases cache.fetch_cases disk slot content with ⟨record, -, heq⟩ | ⟨record, hstored, heq⟩ |
    ⟨-, heq⟩
  · rw [heq]
    exact h
  · rw [heq]
    refine h.replace fun found hfound hcontent => ?_
    by_cases hslot : slot = part.slot snapshot.id
    · subst hslot
      rw [Std.ExtTreeMap.getElem?_insert_self] at hfound
      obtain rfl := Option.some.inj hfound
      -- It is the stored record for this text.
      obtain ⟨-, payload, whole, -, -, hanswers, hshelf⟩ := stored?_iff.mp hstored
      have hsame := (Record.stamp_onShelf? hshelf).2.1.trans (Record.answers_iff.mp hanswers).2.1
      obtain ⟨known, hknown, hvalue⟩ := h.stored
      rw [← hsame, hcontent] at hstored
      obtain rfl := Option.some.inj (hstored.symm.trans hknown)
      exact .inr hvalue
    · rw [getElem?_insert_of_ne _ hslot] at hfound
      exact .inl hfound
  · rw [heq]
    exact h

/-- What is computed and kept after a lookup leaves what is found. -/
lemma keep (h : cache.Holds disk part snapshot value) {asked : Part} {current : Snapshot}
    (hnone : ((cache.fetch disk (asked.slot current.id) current.fingerprint).1.bind
      asked.get?) = none) (kept : asked.Value) :
    ((cache.fetch disk (asked.slot current.id) current.fingerprint).2.keep asked current
      kept).Holds disk part snapshot value := by
  refine (h.fetch (asked.slot current.id) current.fingerprint).replace
    fun record hrecord hcontent => ?_
  by_cases hslot : asked.slot current.id = part.slot snapshot.id
  · have hfile : current.id = snapshot.id := (Slot.mk.inj hslot).2
    rw [← hslot] at hrecord
    obtain rfl := Option.some.inj (hrecord.symm.trans Std.ExtTreeMap.getElem?_insert_self)
    obtain ⟨-, hbase, -, -⟩ :=
      (cache.fetch disk (asked.slot current.id) current.fingerprint).2.base_spec asked current
    have hsame : current.fingerprint = snapshot.fingerprint :=
      hbase.symm.trans ((asked.stamp_set kept _).2.1.symm.trans hcontent)
    -- So it is the record that was just fetched, with another part.
    obtain ⟨found, hfound, hvalue, hlive⟩ := h.fetch_self
    obtain ⟨memory, hframe⟩ := cache.fetch_frame disk (asked.slot current.id) current.fingerprint
    have hgeneration : (cache.fetch disk (asked.slot current.id) current.fingerprint).2.generation
        current.id = cache.generation snapshot.id := by
      rw [hframe, hfile]
      rfl
    have hbase : (cache.fetch disk (asked.slot current.id) current.fingerprint).2.base asked
        current = found := by
      unfold base
      rw [hgeneration, hslot, hsame, hlive, Option.getD_some]
    have hother : part ≠ asked := by
      rintro rfl
      rw [hslot, hsame, hfound, Option.bind_some, hvalue] at hnone
      cases hnone
    refine .inr ?_
    change part.get? (asked.set kept ((cache.fetch disk (asked.slot current.id)
      current.fingerprint).2.base asked current)) = some value
    rw [hbase, Part.get?_set_of_ne hother]
    exact hvalue
  · have hrecord := ((cache.fetch disk (asked.slot current.id)
      current.fingerprint).2.getElem?_insert_of_ne hslot _).symm.trans hrecord
    exact .inl hrecord

end Holds

/-- A text of another module is no news to a module: the two are not connected, or no other text is
recorded. -/
def NoNews (cache : Cache) (id other : ModuleId) (text : String) : Prop :=
  cache.graph.Connected id other → ¬ cache.Differs other (Digest.ofText text)

/-- Nothing that is read before a lookup of a module is news to another one. -/
def ReadsNoNews (cache : Cache) (disk : Disk) (id asked : ModuleId) : Prop :=
  ∀ other ∈ cache.wanted asked, ∀ text, disk.readText ⟨other.text⟩ = .ok text →
    cache.NoNews id other text

namespace Retains

variable {part : Part} {snapshot : Snapshot} {value : part.Value}

/-- Hearing of texts leaves what is found, if the generation stays and no other text is recorded. -/
lemma hears {count : Nat} {after : Cache} (h : cache.Retains disk part snapshot value)
    (hhears : Hears count cache after)
    (hgeneration : after.generation snapshot.id = cache.generation snapshot.id)
    (hsame : ¬ after.Differs snapshot.id snapshot.fingerprint) :
    after.Retains disk part snapshot value :=
  ⟨h.toHolds.hears hhears hgeneration, hsame⟩

/-- Handing in a text that is no news leaves what is found. -/
lemma submit (h : cache.Retains disk part snapshot value) {id : ModuleId} {text : String}
    (hnews : cache.NoNews snapshot.id id text)
    (hown : id = snapshot.id → Digest.ofText text = snapshot.fingerprint) :
    (cache.submit id text).2.Retains disk part snapshot value := by
  refine h.hears (cache.hears_submit id text) ?_ ?_
  · rcases cache.generation_submit id snapshot.id text with ⟨-, hdiffers, hconnected⟩ | ⟨hkept, -⟩
    · exact absurd hdiffers (hnews hconnected.symm)
    · exact hkept
  · rintro ⟨known, hknown, hne⟩
    rw [content?_submit] at hknown
    split_ifs at hknown with hid
    · exact hne (Option.some.inj hknown ▸ hown hid.symm)
    · exact h.same ⟨known, hknown, hne⟩

/-- Reading an unobserved module leaves what is found, if it reads no news. -/
lemma observeOne (h : cache.Retains disk part snapshot value) (hstep : cache.InStep)
    {id : ModuleId} (hid : id.Normal) {content : Digest}
    (hcontent : cache.manifest.content? id = some content)
    (hnews : ∀ text, disk.readText ⟨id.text⟩ = .ok text → cache.NoNews snapshot.id id text) :
    (Cache.observeOne disk cache id).Retains disk part snapshot value := by
  have hhears := hears_observeOne disk cache id
  rw [hstep.observeOne_eq disk hid] at hhears ⊢
  cases hread : disk.readText ⟨id.text⟩ with
  | error fault =>
    rw [hread] at hhears
    exact h.hears hhears rfl h.same
  | ok text =>
    refine h.submit (hnews text hread) ?_
    rintro rfl
    -- Of the module itself the text and the recorded one are both the same.
    have htext : content = Digest.ofText text := by
      by_contra hne
      exact hnews text hread .refl ⟨content, hcontent, hne⟩
    by_contra hne
    exact h.same ⟨content, hcontent, fun hsame => hne (htext.symm.trans hsame)⟩

/-- So does reading several modules. -/
lemma foldl_observeOne (h : cache.Retains disk part snapshot value) (hstep : cache.InStep)
    {ids : List ModuleId} (hnodup : ids.Nodup) (hnormal : ∀ id ∈ ids, id.Normal)
    (hrecorded : ∀ id ∈ ids, ∃ content, cache.manifest.content? id = some content)
    (hnews : ∀ id ∈ ids, ∀ text, disk.readText ⟨id.text⟩ = .ok text →
      cache.NoNews snapshot.id id text) :
    (ids.foldl (Cache.observeOne disk) cache).Retains disk part snapshot value := by
  induction ids generalizing cache with
  | nil => exact h
  | cons id rest ih =>
    obtain ⟨hid, hrest⟩ := List.nodup_cons.mp hnodup
    have hnormalId := hnormal id List.mem_cons_self
    obtain ⟨content, hcontent⟩ := hrecorded id List.mem_cons_self
    have hkept : ∀ other ∈ rest, (Cache.observeOne disk cache id).manifest.content? other =
        cache.manifest.content? other := fun other hother =>
      hstep.content?_observeOne_of_ne hnormalId fun heq => hid (heq ▸ hother)
    refine ih (h.observeOne hstep hnormalId hcontent (hnews id List.mem_cons_self))
      (hstep.observeOne disk hnormalId) hrest
      (fun other hother => hnormal other (List.mem_cons_of_mem _ hother)) ?_ ?_
    · intro other hother
      rw [hkept other hother]
      exact hrecorded other (List.mem_cons_of_mem _ hother)
    · intro other hother text hread hconnected
      rw [(hears_observeOne disk cache id).graph] at hconnected
      unfold Differs
      rw [hkept other hother]
      exact hnews other (List.mem_cons_of_mem _ hother) text hread hconnected

/-- What is read before a lookup leaves what is found, if it is no news. -/
lemma observe (h : cache.Retains disk part snapshot value) (hstep : cache.InStep)
    {asked : ModuleId} (hnews : cache.ReadsNoNews disk snapshot.id asked) :
    (cache.observe disk asked).Retains disk part snapshot value := by
  rw [observe_eq]
  exact h.foldl_observeOne hstep ((cache.graph.nodup_reachable [asked]).filter _)
    (hstep.normal_wanted asked) (fun id hid => (hstep.unobserved id (mem_wanted.mp hid).2.2).1)
    hnews

end Retains

end Cache

/-! ### Resumed runs -/

namespace World

variable {world : World} {part : Part} {snapshot : Snapshot} {value : part.Value}

/-- A call that tells a module nothing new: a text is handed in or a part is asked for, and every
connected module is heard of with its recorded text if at all; or others leave the root alone.  The
module itself is handed in with the text of the snapshot. -/
def IsNoNews (world : World) (snapshot : Snapshot) : Call → Prop
  | .submit path text =>
    if ModuleId.ofPath path = snapshot.id then text = snapshot.text
    else world.cache.NoNews snapshot.id (ModuleId.ofPath path) text
  | .ask _ current _ => world.cache.ReadsNoNews world.disk snapshot.id current.id
  | .edit disk => world.disk.Leaves world.cache.root disk
  | _ => False

/-- Several such calls, one after the other. -/
def Resumes (snapshot : Snapshot) : World → List Call → Prop
  | _, [] => True
  | world, call :: rest => world.IsNoNews snapshot call ∧ (world.take call).Resumes snapshot rest

/-- Such calls may happen. -/
lemma IsNoNews.allows {call : Call} (h : world.IsNoNews snapshot call) : world.Allows call := by
  cases call with
  | edit disk => exact Disk.Leaves.spares h
  | _ => trivial

/-- Asking for a part leaves what is found once the unobserved modules were read. -/
lemma holds_ask {asked : Part} {current : Snapshot}
    (h : (world.cache.observe world.disk current.id).Holds world.disk part snapshot value)
    (computed : asked.Value) :
    (world.ask asked current computed).cache.Holds world.disk part snapshot value := by
  simp only [World.ask, given]
  rcases world.cache.answer_cases world.disk asked current (fun _ => (computed, true)) false with
    ⟨found, -, heq⟩ | ⟨hnone, heq⟩
  · rw [heq]
    exact h.fetch _ _
  · rw [heq]
    exact h.keep hnone computed

/-- What is found once the unobserved modules were read is given without computing it. -/
lemma given_of_holds
    (h : (world.cache.observe world.disk snapshot.id).Holds world.disk part snapshot value)
    (computed : part.Value) :
    (world.given part snapshot computed).1 = value ∧
      (world.given part snapshot computed).2.2 = false := by
  have hfound : (world.cache.lookup world.disk part snapshot).1 = some value := by
    obtain ⟨record, hrecord, hvalue, -⟩ := h.fetch_self
    unfold Cache.lookup
    simp only [hrecord]
    exact hvalue
  unfold given
  rcases world.cache.answer_cases world.disk part snapshot (fun _ => (computed, true)) false with
    ⟨found, hsome, heq⟩ | ⟨hnone, -⟩
  · rw [heq]
    exact ⟨Option.some.inj (hsome.symm.trans hfound), rfl⟩
  · rw [hfound] at hnone
    cases hnone

/-- Asking for a part leaves what is found, if nothing that is read is news. -/
lemma retains_ask (h : world.cache.Retains world.disk part snapshot value)
    (hstep : world.cache.InStep) {asked : Part} {current : Snapshot} (computed : asked.Value)
    (hnews : world.cache.ReadsNoNews world.disk snapshot.id current.id) :
    (world.ask asked current computed).cache.Retains world.disk part snapshot value := by
  have hobserve := h.observe hstep hnews
  refine ⟨holds_ask hobserve.toHolds computed, ?_⟩
  obtain ⟨memory, pending, heq⟩ := world.cache_ask asked current computed
  rw [heq]
  exact hobserve.same

/-- A call that tells a module nothing new leaves what is found of it. -/
theorem retains_take (h : world.cache.Retains world.disk part snapshot value)
    (hstep : world.cache.InStep) {call : Call} (hcall : world.IsNoNews snapshot call) :
    (world.take call).cache.Retains (world.take call).disk part snapshot value := by
  cases call with
  | submit path text =>
    simp only [World.take]
    unfold IsNoNews at hcall
    simp only at hcall
    split_ifs at hcall with hid
    · subst hcall
      refine h.submit (fun _ => ?_) fun _ => rfl
      rw [hid]
      exact h.same
    · exact h.submit hcall fun heq => absurd heq hid
  | ask asked current computed => exact retains_ask h hstep computed hcall
  | edit disk =>
    simp only [World.take]
    have hleaves : world.disk.Leaves world.cache.root disk := hcall
    obtain ⟨record, hstored, hvalue⟩ := h.stored
    exact ⟨⟨⟨record, Cache.stored?_mono rfl rfl rfl id (fun raw _ hmeaning hread =>
      (hleaves.read_artifact _ _ hmeaning).mpr hread) hstored, hvalue⟩, h.live⟩, h.same⟩
  | reopen config tool entries => exact hcall.elim
  | addImport edge => exact hcall.elim
  | done => exact hcall.elim
  | collect => exact hcall.elim
  | clean => exact hcall.elim
  | reconfigure config => exact hcall.elim

/-- Several such calls leave it as well. -/
theorem retains_run (h : world.cache.Retains world.disk part snapshot value) (hstep : world.InStep)
    {calls : List Call} (hcalls : world.Resumes snapshot calls) :
    (world.run calls).cache.Retains (world.run calls).disk part snapshot value ∧
      (world.run calls).InStep := by
  induction calls generalizing world with
  | nil => exact ⟨h, hstep⟩
  | cons call rest ih =>
    exact ih (retains_take h hstep.cache hcalls.1) (hstep.take hcalls.1.allows) hcalls.2

namespace Tended

/-- A flush that did not fail has stored the live records. -/
lemma stored_done (h : world.Tended) (hunique : KeysUnique world.log) {record : Record}
    (hlive : world.cache.live? (part.slot snapshot.id) snapshot.fingerprint
      (world.cache.generation snapshot.id) = some record)
    (hfits : record.Fits world.cache.tool)
    (hdone : (world.cache.done world.disk).1.isFailed = false) :
    (world.cache.done world.disk).2.1.stored? (world.cache.done world.disk).2.2
      (part.slot snapshot.id) snapshot.fingerprint (world.cache.generation snapshot.id) =
      some record := by
  have hbacked := h.backed.done h.recalls hunique
  obtain ⟨-, -, htool, hmemory, -⟩ := world.cache.done_frame world.disk
  obtain ⟨hempty, -⟩ := Cache.unmarked_done hdone
  obtain ⟨hrecord, hanswers⟩ := Cache.live?_eq_some.mp hlive
  obtain ⟨-, hfingerprint, hstamp⟩ := Record.answers_iff.mp hanswers
  have hpending : part.slot snapshot.id ∉ (world.cache.done world.disk).2.1.pending := by
    rw [Std.ExtTreeSet.isEmpty_iff.mp hempty]
    exact Std.ExtTreeSet.not_mem_empty
  rw [← hmemory] at hrecord
  rw [← htool] at hfits
  have hstored := hbacked.stored _ record hrecord hpending hfits
  rwa [hfingerprint, hstamp] at hstored

/-- After a flush that did not fail, a process that opens the namespace finds the live records of
the one before. -/
theorem retains_reopen (h : world.Tended) (hunique : KeysUnique world.log)
    (hcurrent : world.cache.snapshots.get? snapshot.id = some snapshot) {record : Record}
    (hlive : world.cache.live? (part.slot snapshot.id) snapshot.fingerprint
      (world.cache.generation snapshot.id) = some record)
    (hvalue : part.get? record = some value) (hfits : record.Fits world.cache.tool)
    (hdone : (world.cache.done world.disk).1.isFailed = false) {disk : Disk}
    (hleaves : (world.take .done).disk.Leaves world.cache.root disk) (entries : List ModuleId) :
    (Cache.openAt disk world.cache.root world.cache.config world.cache.tool entries).1.Retains
      (Cache.openAt disk world.cache.root world.cache.config world.cache.tool entries).2 part
      snapshot value := by
  have hopen := World.openAt_done h.stands hdone hleaves entries
  have hstored := h.stored_done hunique hlive hfits hdone
  obtain ⟨hroot, hconfig, htool, -⟩ := world.cache.done_frame world.disk
  have hgeneration := world.cache.generation_done world.disk snapshot.id
  have hcontent := world.cache.content?_manifest_done world.disk snapshot.id
  simp only [World.take, put] at hleaves
  generalize (world.cache.done world.disk).2.1 = cache at *
  generalize (world.cache.done world.disk).2.2 = left at *
  rw [← hroot, ← hconfig, ← htool] at hopen
  obtain ⟨opened, hopen, hroot', hconfig', htool', hmanifest, hnone⟩ : ∃ opened,
      Cache.openAt disk cache.root cache.config cache.tool entries = (opened, disk) ∧
        opened.root = cache.root ∧ opened.config = cache.config ∧ opened.tool = cache.tool ∧
        opened.manifest = cache.manifest ∧ opened.memory = ∅ :=
    ⟨_, hopen, rfl, rfl, rfl, rfl, rfl⟩
  have hsame : opened.generation snapshot.id = world.cache.generation snapshot.id := by
    unfold Cache.generation at hgeneration ⊢
    rw [hmanifest, hgeneration]
  rw [← hroot] at hleaves
  rw [← hroot, ← hconfig, ← htool, hopen]
  refine ⟨⟨⟨record, ?_, hvalue⟩, ?_⟩, ?_⟩
  · rw [hsame, Cache.stored?_frame hroot' hconfig' htool' hmanifest]
    exact Cache.stored?_mono rfl rfl rfl id
      (fun raw _ hmeaning hread => (hleaves.read_artifact _ _ hmeaning).mpr hread) hstored
  · intro found hfound
    have hfound := (Cache.live?_eq_some.mp hfound).1
    rw [hnone, Std.ExtTreeMap.getElem?_empty] at hfound
    cases hfound
  · rintro ⟨known, hknown, hne⟩
    rw [hmanifest, hcontent] at hknown
    exact hne (h.step.cache.recorded snapshot.id snapshot known hcurrent hknown)

/-- A new process that hears of the same text of a module finds every part of the module that was
live, without computing it. -/
theorem given_reopened (h : world.Tended) (hunique : KeysUnique world.log)
    (hcurrent : world.cache.snapshots.get? snapshot.id = some snapshot) {record : Record}
    (hlive : world.cache.live? (part.slot snapshot.id) snapshot.fingerprint
      (world.cache.generation snapshot.id) = some record)
    (hvalue : part.get? record = some value) (hfits : record.Fits world.cache.tool)
    (hdone : (world.cache.done world.disk).1.isFailed = false) {disk : Disk}
    (hleaves : (world.take .done).disk.Leaves world.cache.root disk) {entries : List ModuleId}
    {opened : World}
    (hopened : opened = ((world.take .done).take (.edit disk)).take
      (.reopen world.cache.config world.cache.tool entries)) {calls : List Call}
    (hcalls : opened.Resumes snapshot calls) {again : Snapshot} (hid : again.id = snapshot.id)
    (htext : again.text = snapshot.text)
    (hnews : (opened.run calls).cache.ReadsNoNews (opened.run calls).disk snapshot.id again.id)
    (computed : part.Value) :
    ((opened.run calls).given part again computed).1 = value ∧
      ((opened.run calls).given part again computed).2.2 = false := by
  have hroot : (world.take .done).cache.root = world.cache.root := root_take _ _
  have hedit : (world.take .done).Admits (.edit disk) := by
    unfold Admits
    rw [hroot]
    exact hleaves
  have hdoneAdmits : world.Admits .done := trivial
  have hstep : opened.InStep := by
    rw [hopened]
    exact ((h.step.take hdoneAdmits.allows).take hedit.allows).take trivial
  have hretains : opened.cache.Retains opened.disk part snapshot value := by
    have hretains :=
      h.retains_reopen hunique hcurrent hlive hvalue hfits hdone hleaves entries
    rw [← hroot] at hretains
    rw [hopened]
    simp only [World.take, put] at hretains ⊢
    exact hretains
  obtain ⟨hretained, hkept⟩ := retains_run hretains hstep hcalls
  obtain ⟨id, text, version⟩ := again
  obtain rfl : id = snapshot.id := hid
  obtain rfl : text = snapshot.text := htext
  have hagain : (opened.run calls).cache.Retains (opened.run calls).disk part
      ⟨snapshot.id, snapshot.text, version⟩ value :=
    ⟨⟨hretained.stored, hretained.live⟩, hretained.same⟩
  exact given_of_holds (hagain.observe hkept.cache hnews).toHolds computed

end Tended

variable {root : Path} {first : Disk}

/-- After a flush that did not fail, a new process that hears of the same text of a module finds
every part of the module that was live, without computing it: whatever texts were handed in and
whatever was asked for before, and whatever others did elsewhere, if every connected module was
heard of with its recorded text, or was not heard of and cannot be read. -/
theorem results_survive_restart (h : Alone root first world) (hbare : first.IsBare root.place)
    (hfirst : first.Spelled) (hunique : KeysUnique world.log)
    (hcurrent : world.cache.snapshots.get? snapshot.id = some snapshot) {record : Record}
    (hlive : world.cache.live? (part.slot snapshot.id) snapshot.fingerprint
      (world.cache.generation snapshot.id) = some record)
    (hvalue : part.get? record = some value) (hfits : record.Fits world.cache.tool)
    (hdone : (world.cache.done world.disk).1.isFailed = false) {disk : Disk}
    (hleaves : (world.take .done).disk.Leaves root disk) {entries : List ModuleId} {opened : World}
    (hopened : opened = ((world.take .done).take (.edit disk)).take
      (.reopen world.cache.config world.cache.tool entries)) {calls : List Call}
    (hcalls : opened.Resumes snapshot calls) {again : Snapshot} (hid : again.id = snapshot.id)
    (htext : again.text = snapshot.text)
    (hnews : (opened.run calls).cache.ReadsNoNews (opened.run calls).disk snapshot.id again.id)
    (computed : part.Value) :
    ((opened.run calls).given part again computed).1 = value ∧
      ((opened.run calls).given part again computed).2.2 = false := by
  obtain rfl := h.root_eq
  exact (h.tended hbare hfirst hunique).given_reopened hunique hcurrent hlive hvalue hfits hdone
    hleaves hopened hcalls hid htext hnews computed

/-- The output is live, and its record can be read back. -/
lemma live_answered :
    answered.cache.live? (Part.output.slot (Snapshot.id ⟨⟨"a"⟩, "", 1⟩))
        (Snapshot.fingerprint ⟨⟨"a"⟩, "", 1⟩) (answered.cache.generation ⟨"a"⟩) =
        some ⟨⟨"a"⟩, Digest.ofText "", 0, some .nothing, none⟩ ∧
      Record.Fits answered.cache.tool ⟨⟨"a"⟩, Digest.ofText "", 0, some .nothing, none⟩ :=
  ⟨by decide +kernel, by decide +kernel, by decide +kernel⟩

/-- Where there are no edges, a process that takes over and is handed in a text has none. -/
lemma graph_resumed (h : Alone root first world) (hfirst : first.Spelled)
    (hdone : (world.cache.done world.disk).1.isFailed = false)
    (hleaves : (world.take .done).disk.Leaves root (world.take .done).disk)
    (hedges : world.cache.manifest.edges = [] ∧ world.cache.graph.edges = []) {opened : World}
    (hopened : opened = ((world.take .done).take (.edit (world.take .done).disk)).take
      (.reopen world.cache.config world.cache.tool [])) (path text : String) :
    (opened.run [.submit path text]).cache.graph = .empty := by
  have hadmits : world.Admits .done := trivial
  have hopen := h.openAt_done hfirst hdone hleaves []
  have hroot := (h.take hadmits).root_eq
  have hflushed : (world.cache.done world.disk).2.1.manifest.edges = [] := by
    rcases world.cache.manifest_done world.disk with heq | ⟨heq, -⟩
    · rw [heq, hedges.1]
    · rw [heq]
      exact hedges.2
  change (opened.cache.submit (ModuleId.ofPath path) text).2.graph = .empty
  rw [(opened.cache.hears_submit _ _).graph, hopened]
  simp only [World.take, put] at hopen hroot ⊢
  rw [hroot, hopen, hflushed]
  rfl

/-- What was asked for in it is found by the next process. -/
theorem results_survive_restart_answered :
    ∃ opened : World,
      opened = ((answered.take .done).take (.edit (answered.take .done).disk)).take
        (.reopen answered.cache.config answered.cache.tool []) ∧
      ((opened.run [.submit "a" ""]).given .output ⟨⟨"a"⟩, "", 1⟩ (Output.ofCode "b")).1 =
        Output.nothing ∧
      ((opened.run [.submit "a" ""]).given .output ⟨⟨"a"⟩, "", 1⟩ (Output.ofCode "b")).2.2 =
        false := by
  have hadmits : answered.Admits .done := trivial
  have hleaves := (alone_answered.take hadmits).leaves_self .empty
  have hcurrent : answered.cache.snapshots.get? ⟨"a"⟩ = some ⟨⟨"a"⟩, "", 1⟩ := by decide +kernel
  obtain ⟨hlive, hfits⟩ := live_answered
  have hvalue : Part.output.get? ⟨⟨"a"⟩, Digest.ofText "", 0, some .nothing, none⟩ =
      some Output.nothing := rfl
  obtain ⟨opened, hopened⟩ : ∃ opened, opened =
      ((answered.take .done).take (.edit (answered.take .done).disk)).take
        (.reopen answered.cache.config answered.cache.tool []) := ⟨_, rfl⟩
  have hcalls : opened.Resumes ⟨⟨"a"⟩, "", 1⟩ [.submit "a" ""] := by
    refine ⟨?_, trivial⟩
    have hid : ModuleId.ofPath "a" = ⟨"a"⟩ := by decide
    unfold IsNoNews
    simp only [hid, if_true]
  have hnews : (opened.run [.submit "a" ""]).cache.ReadsNoNews (opened.run [.submit "a" ""]).disk
      ⟨"a"⟩ ⟨"a"⟩ := by
    intro other hother
    obtain ⟨hconnected, hne, -⟩ := Cache.mem_wanted.mp hother
    have hedges : answered.cache.manifest.edges = [] ∧ answered.cache.graph.edges = [] := by
      decide +kernel
    have hreachable : ImportGraph.empty.reachable [⟨"a"⟩] = [⟨"a"⟩] := by decide +kernel
    rw [graph_resumed alone_answered .empty done_answered.1 hleaves hedges hopened,
      ← ImportGraph.mem_reachable_singleton, hreachable, List.mem_singleton] at hconnected
    exact absurd hconnected hne
  have hid : (⟨⟨"a"⟩, "", 1⟩ : Snapshot).id = ⟨"a"⟩ := rfl
  exact ⟨opened, hopened, results_survive_restart alone_answered (isBare_empty _) .empty
    keysUnique_answered hcurrent hlive hvalue hfits done_answered.1 hleaves hopened hcalls hid rfl
    hnews (Output.ofCode "b")⟩

end World

end Recompile
