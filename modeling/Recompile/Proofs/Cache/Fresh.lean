import Recompile.Proofs.Cache.Lineage
import Recompile.Proofs.Cache.Provenance

/-!
# What is known from a generation on

Results of earlier generations stay in memory and on disk; what keeps them from being served is that
a lookup asks for the current generation.  `Cache.FreshFrom` says that everything that is known of a
module from some generation on is accepted.  It holds of every generation that the module has not
reached yet, if keys tell generations apart (`Cache.Lineage.freshFrom`), and it is kept as long as
accepted answers are added (`Cache.FreshFrom.done`, `Cache.FreshFrom.keep`).

In a world the accepted answers are those computed since some moment.  So once the generation of a
module is raised, every answer about the module was computed since
(`World.Renewed.computed_of_ask`), as long as the process goes on under the same configuration.
Throwing everything away starts the generations anew, but then nothing else is known either.
-/

namespace Recompile

/-- What is known of a module from a generation on is accepted. -/
structure Cache.FreshFrom (cache : Cache) (disk : Disk) (accepted : Answer → Prop) (id : ModuleId)
    (bar : Nat) : Prop where
  /-- The records in memory. -/
  memory : ∀ (slot : Slot) (record : Record), cache.memory[slot]? = some record → slot.file = id →
    bar ≤ record.generation.toNat → Record.Sound accepted cache.config cache.tool record
  /-- The artifacts that the manifest names. -/
  archive : ∀ (shelf : Shelf) (key : String) (content payload : Bytes) (record : Record),
    (cache.manifest.state id).key? shelf = some key →
    disk.content? (cache.archive.locate shelf key) = some content →
    Artifact.payload cache.tool content = .ok payload → Record.ofBytes payload = .ok record →
    record.file = id → bar ≤ record.generation.toNat →
    Record.Sound accepted cache.config cache.tool record

namespace Cache

variable {accepted other : Answer → Prop} {cache after : Cache} {disk : Disk} {id : ModuleId}
  {bar : Nat}

/-- Of generations that a module has not reached nothing is known, if keys tell generations
apart. -/
theorem Lineage.freshFrom {log : List Served} {texts : Nat} (h : cache.Lineage disk log texts)
    (hapart : KeysApart log) (hbar : (cache.generation id).toNat < bar) :
    cache.FreshFrom disk accepted id bar where
  memory slot record hrecord hslot hle := by
    have hreached := h.memory slot record hrecord
    rw [hslot] at hreached
    omega
  archive shelf key content payload record hkey hcontent hpayload hrecord hfile hle := by
    obtain ⟨stamp, hasked, hstamp, hconfig, hname, hreached⟩ :=
      h.manifests.manifest.key id shelf key hkey
    rw [locate_archive] at hcontent
    obtain ⟨hartifact, hrecorded⟩ :=
      h.records.archives _ _ _ _ _ _ _ hcontent hpayload hrecord
    rw [String.append_assoc, String.append_assoc] at hartifact
    have hsame : stamp.key = (record.stamp cache.config).key :=
      hname.trans (String.append_left_inj _ |>.mp hartifact)
    have hgeneration := hapart stamp _ hasked hrecorded (hstamp.trans hfile.symm) hconfig hsame
    have hrecordGeneration : (record.stamp cache.config).generation = record.generation := rfl
    rw [hgeneration, hrecordGeneration] at hreached
    unfold generation at hbar
    omega

namespace FreshFrom

/-- More answers may be accepted. -/
lemma mono (h : cache.FreshFrom disk accepted id bar)
    (hmono : ∀ answer, accepted answer → other answer) : cache.FreshFrom disk other id bar where
  memory slot record hrecord hslot hle part value hvalue :=
    hmono _ (h.memory slot record hrecord hslot hle part value hvalue)
  archive shelf key content payload record hkey hcontent hpayload hrecord hfile hle part value
      hvalue :=
    hmono _ (h.archive shelf key content payload record hkey hcontent hpayload hrecord hfile hle
      part value hvalue)

/-- A cache without records whose manifest names no keys knows nothing. -/
lemma of_empty (hmemory : cache.memory = ∅)
    (hkey : ∀ shelf, (cache.manifest.state id).key? shelf = none) :
    cache.FreshFrom disk accepted id bar where
  memory slot record hrecord := by
    rw [hmemory] at hrecord
    simp at hrecord
  archive shelf key content payload record hfound := by
    rw [hkey] at hfound
    cases hfound

/-- After everything was thrown away nothing is known. -/
lemma clean (cache : Cache) (disk : Disk) :
    (cache.clean disk).1.FreshFrom (cache.clean disk).2 accepted id bar := by
  refine of_empty rfl fun shelf => ?_
  have hstate := Manifest.state_fresh cache.tool cache.config id
  have hmanifest : (cache.clean disk).1.manifest = .fresh cache.tool cache.config := rfl
  rw [hmanifest, hstate]
  cases shelf <;> rfl

/-- What others do below the root adds nothing that is known. -/
lemma spares {changed : Disk} (h : cache.FreshFrom disk accepted id bar)
    (hspares : disk.Spares cache.root.place changed) :
    cache.FreshFrom changed accepted id bar where
  memory := h.memory
  archive shelf key content payload record hkey hcontent hpayload := by
    rw [locate_archive] at hcontent
    rcases hspares _ content hcontent with hold | hmeaningless
    · rw [← locate_archive] at hold
      exact h.archive shelf key content payload record hkey hold hpayload
    · exact absurd hpayload (hmeaningless.artifact cache.tool payload)

/-- Taking contents away adds nothing that is known. -/
lemma within {less : Disk} (h : cache.FreshFrom disk accepted id bar) (hless : less.Within disk) :
    cache.FreshFrom less accepted id bar :=
  h.spares fun _ _ hcontent => .inl (hless _ _ hcontent)

/-- Comparing texts adds nothing that is known. -/
lemma hears {count : Nat} (h : cache.FreshFrom disk accepted id bar)
    (hhears : Hears count cache after) : after.FreshFrom disk accepted id bar where
  memory := by
    rw [hhears.memory, hhears.config, hhears.tool]
    exact h.memory
  archive shelf key content payload record hkey hcontent hpayload := by
    rw [hhears.key] at hkey
    rw [locate_archive, hhears.root, hhears.config, ← locate_archive] at hcontent
    rw [hhears.tool] at hpayload
    rw [hhears.config, hhears.tool]
    exact h.archive shelf key content payload record hkey hcontent hpayload

/-- A record may be put into memory, if it is accepted or of an earlier generation. -/
lemma insert (h : cache.FreshFrom disk accepted id bar) {slot : Slot} {record : Record}
    (hrecord : slot.file = id → bar ≤ record.generation.toNat →
      Record.Sound accepted cache.config cache.tool record) :
    ({ cache with memory := cache.memory.insert slot record } : Cache).FreshFrom disk accepted id
      bar where
  memory slot' found hfound := by
    rw [Std.ExtTreeMap.getElem?_insert] at hfound
    split_ifs at hfound with hslot
    · obtain rfl := Std.LawfulEqOrd.eq_of_compare hslot
      obtain rfl := Option.some.inj hfound
      exact hrecord
    · exact h.memory slot' found hfound
  archive := h.archive

/-- A stored record is accepted, or of an earlier generation. -/
lemma stored (h : cache.FreshFrom disk accepted id bar) {slot : Slot} {content : Digest}
    {generation : UInt64} {record : Record}
    (hstored : cache.stored? disk slot content generation = some record) (hslot : slot.file = id)
    (hle : bar ≤ record.generation.toNat) :
    Record.Sound accepted cache.config cache.tool record := by
  subst hslot
  obtain ⟨raw, payload, whole, hkey, hraw, hpayload, hwhole, hanswers, hshelf⟩ :=
    stored?_eq_some hstored
  obtain ⟨hfile, -, -⟩ := Record.answers_iff.mp hanswers
  obtain ⟨-, -, hgeneration⟩ := Record.stamp_onShelf? hshelf
  rw [hgeneration] at hle
  exact Record.sound_shelved _ _ _ _ _
    (h.archive slot.shelf _ raw payload whole hkey hraw hpayload hwhole hfile hle) hshelf

/-- Looking a part up adds nothing that is known. -/
theorem lookup (h : cache.FreshFrom disk accepted id bar) (part : Part) (snapshot : Snapshot) :
    (cache.lookup disk part snapshot).2.FreshFrom disk accepted id bar := by
  have hobserve := h.hears (cache.hears_observe disk snapshot.id)
  unfold Cache.lookup
  simp only
  rcases (cache.observe disk snapshot.id).fetch_cases disk (part.slot snapshot.id)
    snapshot.fingerprint with ⟨record, -, heq⟩ | ⟨record, hstored, heq⟩ | ⟨-, heq⟩
  · rw [heq]
    exact hobserve
  · rw [heq]
    exact hobserve.insert (hobserve.stored hstored)
  · rw [heq]
    exact hobserve

/-- Keeping an accepted answer keeps what is known accepted. -/
theorem keep (h : cache.FreshFrom disk accepted id bar) {part : Part} {snapshot : Snapshot}
    {value : part.Value} (hvalue : accepted (World.answerOf cache part snapshot value)) :
    (cache.keep part snapshot value).FreshFrom disk accepted id bar := by
  obtain ⟨hfile, hcontent, hgeneration, hbase⟩ := cache.base_spec part snapshot
  have hsound : snapshot.id = id → bar ≤ (cache.base part snapshot).generation.toNat →
      Record.Sound accepted cache.config cache.tool (cache.base part snapshot) := by
    intro hid hle
    rcases hbase with hblank | hmemory
    · rw [hblank]
      exact Record.sound_blank _ _ _ _ _
    · exact h.memory _ _ hmemory hid hle
  have hset : snapshot.id = id →
      bar ≤ (part.set value (cache.base part snapshot)).generation.toNat →
      Record.Sound accepted cache.config cache.tool
        (part.set value (cache.base part snapshot)) := by
    intro hid hle
    rw [(part.stamp_set value _).2.2] at hle
    refine (hsound hid hle).set ?_
    unfold Record.answer
    rw [hfile, hcontent, hgeneration]
    exact hvalue
  have hinsert : ({ cache with
      memory := cache.memory.insert (part.slot snapshot.id)
        (part.set value (cache.base part snapshot)) } : Cache).FreshFrom disk accepted id bar :=
    h.insert hset
  exact ⟨hinsert.memory, hinsert.archive⟩

/-- A flush stores what is in memory, so what is known stays accepted. -/
theorem done (h : cache.FreshFrom disk accepted id bar) {property : RecordProperty}
    (hkeeps : cache.Keeps property disk) :
    (cache.done disk).2.1.FreshFrom (cache.done disk).2.2 accepted id bar := by
  obtain ⟨hroot, hconfig, htool, hmemory, -⟩ := cache.done_frame disk
  constructor
  · rw [hmemory, hconfig, htool]
    exact h.memory
  · intro shelf key content payload record hkey hcontent hpayload hrecord hfile hle
    rw [hconfig, htool]
    rw [htool] at hpayload
    rw [locate_archive, hroot, hconfig] at hcontent
    -- What is stored now is in memory; what was stored before under an old key is known.
    have hstores : cache.Stores (cache.archive.locate shelf key) content →
        Record.Sound accepted cache.config cache.tool record := by
      intro hstores
      rw [locate_archive] at hstores
      obtain ⟨-, -, -, slot, -, hslot⟩ := hstores.record hpayload hrecord
      exact h.memory slot record hslot ((hkeeps.memory slot record hslot).1.symm.trans hfile) hle
    rcases key?_done hkey with hold | ⟨found, -, -, hnew⟩
    · rcases cache.content?_done disk _ _ _ hcontent with hcontent | hstored
      · rw [← locate_archive] at hcontent
        exact h.archive shelf key content payload record hold hcontent hpayload hrecord hfile hle
      · rw [← locate_archive] at hstored
        exact hstores hstored
    · rw [← locate_archive] at hcontent
      exact hstores (hnew content hcontent)

/-- What a lookup finds is accepted, if the module has reached the generation. -/
theorem accepted_of_lookup (h : cache.FreshFrom disk accepted id bar) {part : Part}
    {snapshot : Snapshot} {value : part.Value} (hid : snapshot.id = id)
    (hbar : bar ≤ ((cache.lookup disk part snapshot).2.generation id).toNat)
    (hfound : (cache.lookup disk part snapshot).1 = some value) :
    accepted (World.answerOf (cache.lookup disk part snapshot).2 part snapshot value) := by
  obtain ⟨record, hmemory, hfile, hcontent, hgeneration, hvalue⟩ := record_of_lookup hfound
  rw [← hid, ← hgeneration] at hbar
  have hpart := (h.lookup part snapshot).memory _ record hmemory hid hbar part value hvalue
  unfold Record.answer at hpart
  rw [hfile, hcontent, hgeneration] at hpart
  exact hpart

end FreshFrom

end Cache

/-! ### Worlds -/

/-- The process goes on under its configuration. -/
def Call.IsInside : Call → Prop
  | .reopen _ _ _ => False
  | .reconfigure _ => False
  | _ => True

namespace World

variable {world : World} {earlier : List Served} {id : ModuleId} {bar : Nat}

/-- What is known of a module from a generation on was computed since an earlier log. -/
def Renewed (world : World) (earlier : List Served) (id : ModuleId) (bar : Nat) : Prop :=
  ∃ later, world.log = earlier ++ later ∧
    world.cache.FreshFrom world.disk (Computed later) id bar

/-- Nothing is known of a generation that was not reached, if keys tell generations apart. -/
lemma Lineage.renewed (h : world.Lineage) (hapart : KeysApart world.log)
    (hbar : (world.cache.generation id).toNat < bar) : world.Renewed world.log id bar :=
  ⟨[], (List.append_nil _).symm, Cache.Lineage.freshFrom h hapart hbar⟩

/-- Another cache and another disk that know no more are renewed as well. -/
lemma Renewed.replace (h : world.Renewed earlier id bar) {cache : Cache} {disk : Disk}
    {texts : Nat} (hknown : ∀ accepted, world.cache.FreshFrom world.disk accepted id bar →
      cache.FreshFrom disk accepted id bar) :
    (World.mk cache disk world.log texts).Renewed earlier id bar := by
  obtain ⟨later, hlog, hfresh⟩ := h
  exact ⟨later, hlog, hknown _ hfresh⟩

/-- One more answer is one more since. -/
lemma renewed_concat {log later : List Served} {served : Served} {cache : Cache} {disk : Disk}
    {texts : Nat} (hlog : log = earlier ++ later)
    (h : cache.FreshFrom disk (Computed (later ++ [served])) id bar) :
    (World.mk cache disk (log ++ [served]) texts).Renewed earlier id bar :=
  ⟨later ++ [served], by rw [hlog, List.append_assoc], h⟩

/-- Asking for a part keeps a module renewed. -/
theorem Renewed.ask (h : world.Renewed earlier id bar) (part : Part) (snapshot : Snapshot)
    (value : part.Value) : (world.ask part snapshot value).Renewed earlier id bar := by
  obtain ⟨later, hlog, hfresh⟩ := h
  have hlookup := hfresh.lookup part snapshot
  have hmono : ∀ served answer, Computed later answer → Computed (later ++ [served]) answer :=
    fun _ _ hcomputed => List.mem_append_left _ hcomputed
  unfold World.ask given
  rcases world.cache.answer_cases world.disk part snapshot (fun _ => (value, true)) false with
    ⟨found, -, heq⟩ | ⟨-, heq⟩
  · rw [heq]
    exact renewed_concat hlog (hlookup.mono (hmono _))
  · rw [heq]
    refine renewed_concat hlog ((hlookup.mono (hmono _)).keep ?_)
    exact List.mem_append_right _ (List.mem_singleton_self _)

/-- Every call inside a process keeps a module renewed. -/
theorem Renewed.take (h : world.Renewed earlier id bar) {property : RecordProperty}
    (hkeeps : world.Keeps property) {call : Call} (hcall : world.Allows call)
    (hinside : call.IsInside) : (world.take call).Renewed earlier id bar := by
  cases call with
  | reopen config tool entries => exact hinside.elim
  | submit path text =>
    exact h.replace fun _ hfresh =>
      hfresh.hears (world.cache.hears_submit (ModuleId.ofPath path) text)
  | addImport edge =>
    refine h.replace fun _ hfresh => ?_
    unfold Cache.addImport
    split_ifs
    · exact hfresh
    · exact ⟨hfresh.memory, hfresh.archive⟩
  | ask part snapshot value => exact h.ask part snapshot value
  | done => exact h.replace fun _ hfresh => hfresh.done hkeeps
  | collect =>
    exact h.replace fun _ hfresh => hfresh.within (world.cache.collect_within world.disk)
  | clean => exact h.replace fun _ _ => .clean world.cache world.disk
  | reconfigure config => exact hinside.elim
  | edit disk => exact h.replace fun _ hfresh => hfresh.spares hcall

/-- So do several calls. -/
lemma Renewed.run {root : Path} (h : world.Renewed earlier id bar) (hreach : Reachable root world)
    {calls : List Call} (hcalls : world.AllowsAll calls) (hinside : ∀ call ∈ calls, call.IsInside) :
    (world.run calls).Renewed earlier id bar := by
  induction calls generalizing world with
  | nil => exact h
  | cons call rest ih =>
    exact ih (h.take hreach.accounted.records hcalls.1 (hinside call List.mem_cons_self))
      (hreach.take hcalls.1) hcalls.2 fun other hother =>
        hinside other (List.mem_cons_of_mem _ hother)

/-- After everything was thrown away, modules are renewed from the first generation on. -/
lemma Renewed.clean (h : world.Renewed earlier id bar) (first : Nat) :
    (world.take .clean).Renewed earlier id first := by
  obtain ⟨later, hlog, -⟩ := h
  exact ⟨later, hlog, .clean world.cache world.disk⟩

/-- Asking for a part reads unobserved modules, and otherwise changes the records in memory
alone. -/
lemma cache_ask (world : World) (part : Part) (snapshot : Snapshot) (value : part.Value) :
    ∃ memory pending, (world.ask part snapshot value).cache =
      { world.cache.observe world.disk snapshot.id with memory, pending } := by
  obtain ⟨memory, hlookup⟩ := world.cache.lookup_frame world.disk part snapshot
  unfold World.ask given
  rcases world.cache.answer_cases world.disk part snapshot (fun _ => (value, true)) false with
    ⟨found, -, heq⟩ | ⟨-, heq⟩
  · rw [heq, hlookup]
    exact ⟨memory, _, rfl⟩
  · rw [heq, hlookup]
    exact ⟨_, _, rfl⟩

/-- Asking for a part changes generations only by reading unobserved modules. -/
lemma generation_ask (world : World) (part : Part) (snapshot : Snapshot) (value : part.Value)
    (id : ModuleId) : (world.ask part snapshot value).cache.generation id =
      (world.cache.observe world.disk snapshot.id).generation id := by
  obtain ⟨memory, pending, heq⟩ := world.cache_ask part snapshot value
  rw [heq]
  rfl

/-- An answer about a renewed module that was not computed now was computed since, if the module has
reached the generation. -/
theorem Renewed.computed_of_ask (h : world.Renewed earlier id bar) {part : Part}
    {snapshot : Snapshot} {value : part.Value} (hid : snapshot.id = id)
    (hbar : bar ≤ ((world.ask part snapshot value).cache.generation id).toNat)
    {later : List Served} {answer : Answer}
    (hlog : (world.ask part snapshot value).log = earlier ++ later ++ [⟨answer, false⟩]) :
    ⟨answer, true⟩ ∈ later := by
  obtain ⟨since, hsince, hfresh⟩ := h
  have hgeneration : (world.ask part snapshot value).cache.generation id =
      (world.cache.lookup world.disk part snapshot).2.generation id := by
    obtain ⟨memory, hlookup⟩ := world.cache.lookup_frame world.disk part snapshot
    rw [generation_ask, hlookup]
    rfl
  rw [hgeneration] at hbar
  unfold World.ask given at hlog
  rcases world.cache.answer_cases world.disk part snapshot (fun _ => (value, true)) false with
    ⟨found, hfound, heq⟩ | ⟨-, heq⟩
  · rw [heq] at hlog
    obtain ⟨hbefore, hserved⟩ := List.append_inj' hlog rfl
    obtain rfl : since = later := List.append_cancel_left (hsince.symm.trans hbefore)
    obtain ⟨hanswer, -⟩ := Served.mk.inj (List.head_eq_of_cons_eq hserved)
    rw [← hanswer]
    exact hfresh.accepted_of_lookup hid hbar hfound
  · rw [heq] at hlog
    obtain ⟨-, hserved⟩ := List.append_inj' hlog rfl
    obtain ⟨-, hcomputed⟩ := Served.mk.inj (List.head_eq_of_cons_eq hserved)
    cases hcomputed

/-! ### Generations -/

/-- Handing in a text of a module of which another one is recorded raises the connected modules. -/
lemma Lineage.generation_submit (h : world.Lineage) {path text : String}
    (hlt : (world.take (.submit path text)).texts < 2 ^ 64)
    (hdiffers : world.cache.Differs (ModuleId.ofPath path) (Digest.ofText text))
    (hconnected : world.cache.graph.Connected (ModuleId.ofPath path) id) :
    ((world.take (.submit path text)).cache.generation id).toNat =
      (world.cache.generation id).toNat + 1 := by
  have hbounded : (world.cache.generation id).toNat ≤ world.texts :=
    h.manifests.manifest.bounded id
  have htexts : world.texts + 1 < 2 ^ 64 := hlt
  rcases world.cache.generation_submit (ModuleId.ofPath path) id text with ⟨hraised, -⟩ | ⟨-, hnot⟩
  · simp only [World.take]
    rw [hraised, Cache.toNat_raised (by omega)]
  · exact absurd ⟨hdiffers, hconnected⟩ hnot

/-- Inside a process no call but throwing everything away lowers a generation. -/
theorem Lineage.generation_le_take (h : world.Lineage) {call : Call} (hinside : call.IsInside)
    (hclean : call ≠ .clean) (hlt : (world.take call).texts < 2 ^ 64) (id : ModuleId) :
    (world.cache.generation id).toNat ≤ ((world.take call).cache.generation id).toNat := by
  have hbounded := h.manifests.manifest.bounded
  cases call with
  | reopen config tool entries => exact hinside.elim
  | submit path text =>
    exact ((world.cache.hears_submit (ModuleId.ofPath path) text).generation _ hbounded hlt id).1
  | addImport edge =>
    simp only [World.take, Cache.addImport]
    split_ifs <;> exact Nat.le_refl _
  | ask part snapshot value =>
    have hobserve := world.cache.hears_observe world.disk snapshot.id
    have hgeneration := world.generation_ask part snapshot value id
    simp only [World.take]
    rw [hgeneration]
    exact (hobserve.generation _ hbounded hlt id).1
  | done =>
    simp only [World.take, put]
    rw [Cache.generation_done]
  | collect => simp only [World.take, Nat.le_refl]
  | clean => exact absurd rfl hclean
  | reconfigure config => exact hinside.elim
  | edit disk => simp only [World.take, Nat.le_refl]

/-- Nor do several such calls. -/
theorem Reachable.generation_le_run {root : Path} (h : Reachable root world) {calls : List Call}
    (hcalls : world.AllowsAll calls) (hinside : ∀ call ∈ calls, call.IsInside)
    (hclean : .clean ∉ calls) (hlt : (world.run calls).texts < 2 ^ 64) (id : ModuleId) :
    (world.cache.generation id).toNat ≤ ((world.run calls).cache.generation id).toNat := by
  induction calls generalizing world with
  | nil => exact Nat.le_refl _
  | cons call rest ih =>
    obtain ⟨hne, hrest⟩ := not_or.mp (mt List.mem_cons.mpr hclean)
    have htake : (world.take call).texts < 2 ^ 64 :=
      (texts_le_run (world.take call) rest).trans_lt hlt
    have hlineage := h.lineage ((texts_le_take world call).trans_lt htake)
    have hfirst :=
      hlineage.generation_le_take (hinside call List.mem_cons_self) (Ne.symm hne) htake id
    exact hfirst.trans (ih (h.take hcalls.1) hcalls.2
      (fun other hother => hinside other (List.mem_cons_of_mem _ hother)) hrest hlt)

end World

end Recompile
