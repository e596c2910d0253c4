import Recompile.Proofs.Cache.Alone
import Recompile.Proofs.Cache.Provenance

/-!
# What throwing away forgets

Throwing everything away ends what is known under the active configuration: the records in memory
and the namespace on disk.  Afterwards generations start again at zero, and an artifact may get the
key that an earlier one had; so it has to be known that no earlier artifact is left, rather than
that none is named.  What is known of the configuration is then what was computed since
(`World.Relearned`), by the same argument as for `World.Accounted`, over the rest of the log.

A namespace that is opened right after is empty, and everything outside of it is left alone
(`World.clean_forgets`).
-/

namespace Recompile

/-! ### Throwing away a namespace -/

namespace Cache

variable {cache : Cache} {disk : Disk}

/-- The active namespace has no file, or its directory can be removed. -/
def Removable (cache : Cache) (disk : Disk) : Prop :=
  disk.IsBare cache.directory.place ∨ ∃ removed, disk.removeTree cache.directory = .ok removed

/-- A namespace that can be removed has no file after it was thrown away. -/
lemma isBare_discard (h : cache.Removable disk) :
    (cache.discard disk).2.IsBare cache.directory.place := by
  intro below
  rcases h with hbare | ⟨removed, hremoved⟩
  · by_contra hsome
    obtain ⟨content, hcontent⟩ := Option.ne_none_iff_exists'.mp hsome
    have hbefore := cache.discard_within disk _ _ hcontent
    rw [hbare below] at hbefore
    cases hbefore
  · unfold discard
    rw [hremoved, Disk.eq_prune_of_removeTree hremoved]
    exact Disk.content?_prune _ _ _

/-- Throwing a namespace away leaves everything outside of its directory. -/
lemma node?_discard {location : Location} (h : ¬ cache.directory.place <+: location) :
    (cache.discard disk).2.node? location = disk.node? location := by
  rcases cache.disk_discard disk with heq | ⟨heq, -⟩
  · rw [heq, Disk.node?_prune, if_neg h]
    unfold Disk.node?
    split_ifs <;> rfl
  · rw [heq]

/-- Throwing everything away leaves records of other configurations only. -/
lemma Keeps.clean_others {property : RecordProperty} (h : cache.Keeps property disk)
    (hremovable : cache.Removable disk) :
    (cache.clean disk).1.Keeps
      (fun config tool record => config ≠ cache.config ∧ property config tool record)
      (cache.clean disk).2 := by
  refine of_memory_empty rfl ?_
  intro config directory name tool content payload record hcontent hpayload hrecord
  obtain ⟨hname, hproperty⟩ :=
    h.clean.archives config directory name tool content payload record hcontent hpayload hrecord
  refine ⟨hname, ?_, hproperty⟩
  rintro rfl
  have hbare := isBare_discard hremovable [directory, name]
  rw [place_directory, List.append_assoc] at hbare
  exact Option.some_ne_none content (hcontent.symm.trans hbare)

/-- Throwing everything away keeps the root and leaves the disk without the namespace. -/
lemma clean_frame (cache : Cache) (disk : Disk) :
    (cache.clean disk).1.root = cache.root ∧ (cache.clean disk).2 = (cache.discard disk).2 :=
  ⟨rfl, rfl⟩

/-- A namespace that is opened after it was thrown away holds nothing. -/
lemma openAt_discard (cache : Cache) (disk : Disk) (tool : String) (entries : List ModuleId) :
    openAt (cache.discard disk).2 cache.root cache.config tool entries =
      (fresh cache.root cache.config tool entries, (cache.discard disk).2) :=
  openAt_of_not_load (cache.load_discard disk) tool entries

end Cache

/-! ### Afterwards -/

namespace World

/-- Everything that is known under a configuration was computed lately, and so was every answer
under it that was given lately without computing it. -/
structure Relearned (world : World) (config : Digest) (lately : List Served) : Prop where
  /-- The records. -/
  records : world.Keeps
    (Record.Sound fun answer => answer.config = config → Computed lately answer)
  /-- The answers. -/
  answers : ∀ (before after : List Served) (answer : Answer),
    lately = before ++ ⟨answer, false⟩ :: after → answer.config = config → Computed before answer

variable {world : World} {config : Digest} {lately : List Served}

/-- After everything was thrown away nothing has been computed lately, and nothing is known. -/
lemma relearned_clean {property : RecordProperty} (h : world.Keeps property)
    (hremovable : world.cache.Removable world.disk) :
    (world.take .clean).Relearned world.cache.config [] where
  records := by
    have hothers := Cache.Keeps.clean_others h hremovable
    refine keeps_mk (hothers.mono fun config tool record hrecord part value _ hconfig => ?_)
    exact absurd hconfig hrecord.1
  answers before after answer hlog _ :=
    absurd hlog.symm (List.append_ne_nil_of_right_ne_nil _ (List.cons_ne_nil _ _))

/-- Asking for a part keeps everything that is known relearned. -/
lemma Relearned.ask (h : world.Relearned config lately) (part : Part) (snapshot : Snapshot)
    (value : part.Value) :
    ∃ rest, (world.ask part snapshot value).log = world.log ++ rest ∧
      (world.ask part snapshot value).Relearned config (lately ++ rest) := by
  obtain ⟨served, hlog, hknown, hkeeps⟩ := ask_sound h.records part snapshot value
  refine ⟨[served], hlog, hkeeps _ (fun answer hanswer hconfig => ?_) (fun hcomputed _ => ?_), ?_⟩
  · exact List.mem_append_left _ (hanswer hconfig)
  · have hserved : (⟨served.answer, true⟩ : Served) = served := by rw [← hcomputed]
    unfold Computed
    rw [hserved]
    exact List.mem_append_right _ (List.mem_singleton_self _)
  · exact computed_concat h.answers hknown

/-- Every call keeps everything that is known relearned. -/
theorem Relearned.take (h : world.Relearned config lately) {call : Call}
    (hcall : world.Allows call) :
    ∃ rest, (world.take call).log = world.log ++ rest ∧
      (world.take call).Relearned config (lately ++ rest) := by
  by_cases hask : ∃ part snapshot value, call = .ask part snapshot value
  · obtain ⟨part, snapshot, value, rfl⟩ := hask
    exact h.ask part snapshot value
  · have hlog := world.log_take fun part snapshot value heq => hask ⟨part, snapshot, value, heq⟩
    refine ⟨[], by rw [hlog, List.append_nil], ?_⟩
    rw [List.append_nil]
    refine ⟨h.records.take hcall fun part snapshot value heq => ?_, h.answers⟩
    exact absurd ⟨part, snapshot, value, heq⟩ hask

/-- So do several calls. -/
theorem Relearned.run (h : world.Relearned config lately) {calls : List Call}
    (hcalls : world.AllowsAll calls) :
    ∃ rest, (world.run calls).log = world.log ++ rest ∧
      (world.run calls).Relearned config (lately ++ rest) := by
  induction calls generalizing world lately with
  | nil =>
    refine ⟨[], (List.append_nil _).symm, ?_⟩
    rw [List.append_nil]
    exact h
  | cons call calls ih =>
    obtain ⟨first, hfirst, hnext⟩ := h.take hcalls.1
    obtain ⟨rest, hrest, hlast⟩ := ih hnext hcalls.2
    refine ⟨first ++ rest, ?_, ?_⟩
    · rw [← List.append_assoc, ← hfirst]
      exact hrest
    · rw [← List.append_assoc]
      exact hlast

/-- A process that opens a namespace that was thrown away knows nothing. -/
lemma reopen_clean (world : World) (tool : String) (entries : List ModuleId) :
    ((world.take .clean).take (.reopen world.cache.config tool entries)).cache =
      .fresh world.cache.root world.cache.config tool entries := by
  simp only [take, put, Cache.clean_frame]
  rw [Cache.openAt_discard]

/-- Throwing everything away forgets what was computed under the active configuration: whatever
happens then, in this process or in later ones, an answer under it that is not computed was computed
since.  The namespace is empty when it is opened next, and what is outside of its directory stays as
it was. -/
theorem clean_forgets {root : Path} (h : Reachable root world)
    (hremovable : world.cache.Removable world.disk) :
    (∀ calls, (world.take .clean).AllowsAll calls →
      ∃ later, ((world.take .clean).run calls).log = world.log ++ later ∧
        ∀ (before after : List Served) (answer : Answer),
          later = before ++ ⟨answer, false⟩ :: after → answer.config = world.cache.config →
          ⟨answer, true⟩ ∈ before) ∧
      (∀ entries, ∃ opened,
        (world.take .clean).take (.reopen world.cache.config world.cache.tool entries) = opened ∧
          opened.cache.graph = .empty ∧ opened.cache.manifest.files = ∅ ∧
          ∀ id, opened.cache.generation id = 0) ∧
      ∀ location, ¬ world.cache.directory.place <+: location →
        (world.take .clean).disk.node? location = world.disk.node? location := by
  refine ⟨fun calls hcalls => ?_, fun entries => ⟨_, rfl, ?_⟩, fun location => ?_⟩
  · obtain ⟨later, hlog, hrelearned⟩ :=
      (relearned_clean h.accounted.records hremovable).run hcalls
    exact ⟨later, hlog, hrelearned.answers⟩
  · rw [reopen_clean]
    exact ⟨rfl, rfl, fun id => congrArg FileState.generation (Manifest.state_fresh _ _ id)⟩
  · exact Cache.node?_discard

/-- A value was computed and stored; everything is thrown away, and the value is computed again. -/
theorem clean_forgets_answered :
    (answered.take .done).cache.Removable (answered.take .done).disk ∧
      ∃ later, (((answered.take .done).take .clean).run
          [.ask .output ⟨⟨"a"⟩, "", 1⟩ .nothing]).log = (answered.take .done).log ++ later ∧
        ∀ (before after : List Served) (answer : Answer),
          later = before ++ ⟨answer, false⟩ :: after →
          answer.config = (answered.take .done).cache.config → ⟨answer, true⟩ ∈ before := by
  have hremovable : (answered.take .done).cache.Removable (answered.take .done).disk := by
    have hremoved := done_answered.2
    cases hresult : (answered.take .done).disk.removeTree (answered.take .done).cache.directory with
    | ok removed => exact .inr ⟨removed, hresult⟩
    | error fault =>
      rw [hresult] at hremoved
      cases hremoved
  have hreachable : Reachable ⟨"cache"⟩ (answered.take .done) :=
    (alone_answered.reachable (isBare_empty _)).take trivial
  exact ⟨hremovable, (clean_forgets hreachable hremovable).1 _ ⟨trivial, trivial⟩⟩

end World

end Recompile
