import Recompile.Proofs.Cache.Backed

/-!
# Worlds that are tended

What a cache needs to rely on what it stored is the same whatever the disk was like when the process
began: its snapshots belong to its manifest, the manifest stands unless something is marked, and the
records in memory are about what was asked for and are backed (`World.Tended`).  A process that
opens a root begins with nothing in memory, so its world is tended at once, as long as the manifests
on the disk have normal identifiers; and it stays so as long as others leave the root alone and keys
are unique (`World.Tended.take`).
-/

namespace Recompile

namespace Cache

variable {cache : Cache} {disk : Disk}

/-! ### Records that are asked for -/

/-- A record in memory after a lookup was there before, or it is about what was looked up. -/
lemma memory_lookup {part : Part} {snapshot : Snapshot} {slot : Slot} {record : Record}
    (h : (cache.lookup disk part snapshot).2.memory[slot]? = some record) :
    cache.memory[slot]? = some record ∨ slot = part.slot snapshot.id ∧
      record.file = snapshot.id ∧ record.content = snapshot.fingerprint ∧
      record.generation = (cache.lookup disk part snapshot).2.generation snapshot.id := by
  have hmemory := (cache.hears_observe disk snapshot.id).memory
  unfold lookup at h ⊢
  simp only at h ⊢
  generalize cache.observe disk snapshot.id = observed at *
  rw [← hmemory]
  rcases observed.fetch_cases disk (part.slot snapshot.id) snapshot.fingerprint with
    ⟨found, -, heq⟩ | ⟨found, hstored, heq⟩ | ⟨-, heq⟩
  · rw [heq] at h
    exact .inl h
  · rw [heq] at h ⊢
    rw [Std.ExtTreeMap.getElem?_insert] at h
    split_ifs at h with hslot
    · obtain rfl := Option.some.inj h
      obtain ⟨-, payload, whole, -, -, hanswers, hshelf⟩ := stored?_iff.mp hstored
      obtain ⟨hfile, hcontent, hgeneration⟩ := Record.answers_iff.mp hanswers
      obtain ⟨hfile', hcontent', hgeneration'⟩ := Record.stamp_onShelf? hshelf
      exact .inr ⟨(Std.LawfulEqOrd.eq_of_compare hslot).symm, hfile'.trans hfile,
        hcontent'.trans hcontent, hgeneration'.trans hgeneration⟩
    · exact .inl h
  · rw [heq] at h
    exact .inl h

/-- A record in memory after a part was kept was there before, or it is about that part. -/
lemma memory_keep {part : Part} {snapshot : Snapshot} {value : part.Value} {slot : Slot}
    {record : Record} (h : (cache.keep part snapshot value).memory[slot]? = some record) :
    cache.memory[slot]? = some record ∨ slot = part.slot snapshot.id ∧
      record.file = snapshot.id ∧ record.content = snapshot.fingerprint ∧
      record.generation = cache.generation snapshot.id := by
  change (cache.memory.insert (part.slot snapshot.id)
    (part.set value (cache.base part snapshot)))[slot]? = some record at h
  rw [Std.ExtTreeMap.getElem?_insert] at h
  split_ifs at h with hslot
  · obtain rfl := Option.some.inj h
    obtain ⟨hfile, hcontent, hgeneration, -⟩ := cache.base_spec part snapshot
    obtain ⟨hfile', hcontent', hgeneration'⟩ := part.stamp_set value (cache.base part snapshot)
    exact .inr ⟨(Std.LawfulEqOrd.eq_of_compare hslot).symm, hfile'.trans hfile,
      hcontent'.trans hcontent, hgeneration'.trans hgeneration⟩
  · exact .inl h

/-- Nothing in memory is about nothing that was not asked for. -/
lemma recalls_of_memory_empty (h : cache.memory = ∅) (log : List Served) : cache.Recalls log := by
  intro slot record hrecord
  rw [h, Std.ExtTreeMap.getElem?_empty] at hrecord
  cases hrecord

/-- The same records recall the same. -/
lemma Recalls.frame {after : Cache} {log : List Served} (h : cache.Recalls log)
    (hmemory : after.memory = cache.memory) (hconfig : after.config = cache.config) :
    after.Recalls log := by
  intro slot record hrecord
  rw [hmemory] at hrecord
  unfold Record.Asked
  rw [hconfig]
  exact h slot record hrecord

end Cache

namespace World

variable {world : World} {root : Path} {first : Disk}

/-- A record in memory after a part was asked for was there before, or it is about what was
asked for. -/
lemma memory_ask {part : Part} {snapshot : Snapshot} {value : part.Value} {slot : Slot}
    {record : Record}
    (h : (world.ask part snapshot value).cache.memory[slot]? = some record) :
    world.cache.memory[slot]? = some record ∨ slot = part.slot snapshot.id ∧
      record.file = snapshot.id ∧ record.content = snapshot.fingerprint ∧
      record.generation = (world.ask part snapshot value).cache.generation snapshot.id := by
  unfold World.ask given at h ⊢
  rcases world.cache.answer_cases world.disk part snapshot (fun _ => (value, true)) false with
    ⟨found, -, heq⟩ | ⟨-, heq⟩
  · rw [heq] at h ⊢
    exact Cache.memory_lookup h
  · rw [heq] at h ⊢
    rcases Cache.memory_keep h with hold | hnew
    · exact Cache.memory_lookup hold
    · exact .inr hnew

/-- Asking for a part leaves records that are about what was asked for. -/
lemma recalls_ask (h : world.cache.Recalls world.log) (part : Part) (snapshot : Snapshot)
    (value : part.Value) :
    (world.ask part snapshot value).cache.Recalls (world.ask part snapshot value).log := by
  have hconfig : (world.ask part snapshot value).cache.config = world.cache.config := by
    obtain ⟨memory, pending, heq⟩ := world.cache_ask part snapshot value
    rw [heq]
    exact (world.cache.hears_observe world.disk snapshot.id).config
  intro slot record hrecord
  rcases memory_ask hrecord with hold | ⟨rfl, hfile, hcontent, hgeneration⟩
  · obtain ⟨hfile, hasked⟩ := h slot record hold
    refine ⟨hfile, ?_⟩
    unfold Record.Asked
    rw [hconfig]
    exact hasked.append _
  · refine ⟨hfile, _, List.mem_append_right _ (List.mem_singleton_self _), ?_⟩
    unfold Record.stamp Answer.stamp
    rw [hfile, hcontent, hgeneration]
    rfl

/-- Every call leaves records that are about what was asked for, whatever is on the disk. -/
theorem recalls_take (h : world.cache.Recalls world.log) (call : Call) :
    (world.take call).cache.Recalls (world.take call).log := by
  cases call with
  | reopen config tool entries =>
    simp only [World.take, put, Cache.openAt]
    exact Cache.recalls_of_memory_empty (Cache.attach_frame _ _).2.2.2.1 _
  | submit path text =>
    have hhears := world.cache.hears_submit (ModuleId.ofPath path) text
    simp only [World.take]
    exact h.frame hhears.memory hhears.config
  | addImport edge =>
    simp only [World.take]
    unfold Cache.addImport
    split_ifs
    · exact h
    · exact h.frame rfl rfl
  | ask part snapshot value => exact recalls_ask h part snapshot value
  | done =>
    obtain ⟨-, hconfig, -, hmemory, -⟩ := world.cache.done_frame world.disk
    simp only [World.take, put]
    exact h.frame hmemory hconfig
  | collect => simpa only [World.take] using h
  | clean =>
    simp only [World.take, put]
    exact Cache.recalls_of_memory_empty rfl _
  | reconfigure config =>
    simp only [World.take, put]
    by_cases hsame : config = world.cache.config
    · obtain ⟨-, hconfig, -, hmemory, -⟩ := world.cache.done_frame world.disk
      rw [hsame, Cache.reconfigure_self]
      exact h.frame hmemory hconfig
    · rw [Cache.reconfigure_eq _ _ hsame]
      dsimp only
      refine Cache.recalls_of_memory_empty ?_ _
      rw [(Cache.hears_recordSnapshots _).memory, (Cache.attach_frame _ _).2.2.2.1]
      rfl
  | edit disk => simpa only [World.take] using h

/-! ### Tended worlds -/

/-- The cache is in step with what it recorded, its manifest stands, and the records in memory are
about what was asked for and backed. -/
structure Tended (world : World) : Prop where
  /-- What is listed on the disk has a name. -/
  spelled : world.disk.Spelled
  /-- The snapshots belong to what is recorded. -/
  step : world.InStep
  /-- The manifest of the cache stands. -/
  stands : world.cache.Stands world.disk
  /-- The records are about what was asked for. -/
  recalls : world.cache.Recalls world.log
  /-- The records are backed. -/
  backed : world.cache.Backed world.disk

/-- The world of a process that opens a root is tended, if what is listed has a name and the
manifests are normal. -/
lemma tended_reopen (hspelled : world.disk.Spelled) (hstep : world.InStep) (config : Digest)
    (tool : String) (entries : List ModuleId) :
    (world.take (.reopen config tool entries)).Tended where
  spelled := spelled_take hspelled trivial
  step := hstep.take trivial
  stands := by
    simp only [World.take, put, Cache.openAt]
    exact Cache.Stands.attach world.disk rfl
  recalls := by
    simp only [World.take, put, Cache.openAt]
    exact Cache.recalls_of_memory_empty (Cache.attach_frame _ _).2.2.2.1 _
  backed := by
    simp only [World.take, put, Cache.openAt]
    exact .of_memory_empty (Cache.attach_frame _ _).2.2.2.1 _

namespace Tended

/-- Every call leaves a world tended, if others leave the root alone and keys are unique. -/
theorem take (h : world.Tended) (hunique : KeysUnique world.log) {call : Call}
    (hcall : world.Admits call) : (world.take call).Tended where
  spelled := spelled_take h.spelled hcall
  step := h.step.take hcall.allows
  stands := stands_take h.spelled h.stands hcall
  recalls := recalls_take h.recalls call
  backed := backed_take h.spelled h.recalls hunique h.backed hcall

/-- Several calls leave a world tended. -/
theorem run (h : world.Tended) {calls : List Call} (hunique : KeysUnique (world.run calls).log)
    (hcalls : world.AdmitsAll calls) : (world.run calls).Tended := by
  induction calls generalizing world with
  | nil => exact h
  | cons call rest ih =>
    obtain ⟨later, hlog⟩ := world.log_prefix_run (call :: rest)
    have hbefore : KeysUnique world.log := by
      rw [hlog] at hunique
      exact hunique.of_append
    exact ih (h.take hbefore hcalls.1) hunique hcalls.2

end Tended

/-- Where the root is left alone and keys are unique, the world is tended. -/
theorem Alone.tended (h : Alone root first world) (hbare : first.IsBare root.place)
    (hfirst : first.Spelled) (hunique : KeysUnique world.log) : world.Tended where
  spelled := h.spelled hfirst
  step := (h.reachable hbare).inStep
  stands := h.stands hfirst
  recalls := (h.reachable hbare).asked.memory
  backed := h.backed hbare hfirst hunique

end World

end Recompile
