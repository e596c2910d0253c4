import Recompile.Proofs.Cache.Fresh

/-!
# Changed texts

When another text of a module is handed in, whatever was computed about the modules connected to it
must not be served any more.  `World.Forgets` says so of a world, a module and an earlier log:
however the process goes on, an answer about the module that is not computed then was computed
since.

Handing in a text compares it with what the manifest records, not with the snapshot.  If something
is recorded, every connected module is forgotten, and otherwise nothing is: all generations stay and
all records go on answering (`World.changed_text_reaches_connected`).  As long as nothing was thrown
away, everything with a snapshot is recorded (`World.recorded_run`).  After that the snapshots are
still there but nothing is recorded, and the first change of a text is missed
(`World.changed_text_missed`).
-/

namespace Recompile.World

variable {world : World} {earlier : List Served} {id : ModuleId}

/-! ### Current modules -/

/-- What is known of a module at its current generation and later ones was computed since an earlier
log. -/
def Current (world : World) (earlier : List Served) (id : ModuleId) : Prop :=
  ∃ bar, bar ≤ (world.cache.generation id).toNat ∧ world.Renewed earlier id bar

/-- Every call inside a process keeps a module current. -/
theorem Current.take (h : world.Current earlier id) (hlineage : world.Lineage) {call : Call}
    (hcall : world.Allows call) (hinside : call.IsInside)
    (hlt : (world.take call).texts < 2 ^ 64) : (world.take call).Current earlier id := by
  obtain ⟨bar, hbar, hrenewed⟩ := h
  by_cases hclean : call = .clean
  · -- The generations start anew, and nothing is known of any.
    subst hclean
    exact ⟨0, Nat.zero_le _, hrenewed.clean 0⟩
  · exact ⟨bar, hbar.trans (hlineage.generation_le_take hinside hclean hlt id),
      hrenewed.take hlineage.records hcall hinside⟩

/-- So do several calls. -/
theorem Current.run {root : Path} (h : world.Current earlier id) (hreach : Reachable root world)
    {calls : List Call} (hcalls : world.AllowsAll calls)
    (hinside : ∀ call ∈ calls, call.IsInside) (hlt : (world.run calls).texts < 2 ^ 64) :
    (world.run calls).Current earlier id := by
  induction calls generalizing world with
  | nil => exact h
  | cons call rest ih =>
    have hrest : (world.take call).texts < 2 ^ 64 :=
      (texts_le_run (world.take call) rest).trans_lt hlt
    have hlineage := hreach.lineage ((texts_le_take world call).trans_lt hrest)
    exact ih (h.take hlineage hcalls.1 (hinside call List.mem_cons_self) hrest)
      (hreach.take hcalls.1) hcalls.2
      (fun other hother => hinside other (List.mem_cons_of_mem _ hother)) hlt

/-! ### Forgetting -/

/-- However the process goes on, an answer about the module that is not computed then was computed
since an earlier log. -/
def Forgets (world : World) (earlier : List Served) (id : ModuleId) : Prop :=
  ∀ (calls : List Call) (part : Part) (snapshot : Snapshot) (value : part.Value)
    (later : List Served) (answer : Answer), world.AllowsAll calls →
    (∀ call ∈ calls, call.IsInside) → snapshot.id = id →
    ((world.run calls).ask part snapshot value).texts < 2 ^ 64 →
    ((world.run calls).ask part snapshot value).log = earlier ++ later ++ [⟨answer, false⟩] →
    ⟨answer, true⟩ ∈ later

/-- A module that is current since an earlier log is forgotten. -/
theorem Current.forgets {root : Path} (h : world.Current earlier id)
    (hreach : Reachable root world) : world.Forgets earlier id := by
  intro calls part snapshot value later answer hcalls hinside hid hlt hlog
  have hrun : (world.run calls).texts < 2 ^ 64 :=
    (texts_le_take (world.run calls) (.ask part snapshot value)).trans_lt hlt
  obtain ⟨bar, hbar, hrenewed⟩ := h.run hreach hcalls hinside hrun
  have hlineage := (hreach.run hcalls).lineage hrun
  have hask : (Call.ask part snapshot value).IsInside := trivial
  have hclean : Call.ask part snapshot value ≠ .clean := fun heq => by cases heq
  have hgrow := hlineage.generation_le_take hask hclean hlt id
  exact hrenewed.computed_of_ask hid (hbar.trans hgrow) hlog

/-- Handing in a text of a module of which another one is recorded makes the connected modules
forgotten. -/
theorem forgets_submit {root : Path} (h : Reachable root world) (hapart : KeysApart world.log)
    {path text : String}
    (hdiffers : world.cache.Differs (ModuleId.ofPath path) (Digest.ofText text))
    (hconnected : world.cache.graph.Connected (ModuleId.ofPath path) id) :
    (world.take (.submit path text)).Forgets world.log id := by
  intro calls part snapshot value later answer hcalls hinside hid hlt hlog
  have hsubmit : (world.take (.submit path text)).texts < 2 ^ 64 :=
    ((texts_le_run _ calls).trans (texts_le_take _ (.ask part snapshot value))).trans_lt hlt
  have hlineage := h.lineage ((texts_le_take world (.submit path text)).trans_lt hsubmit)
  -- Nothing is known of the next generation, which handing in the text reaches.
  have hrenewed := hlineage.renewed hapart (Nat.lt_succ_self (world.cache.generation id).toNat)
  have hcurrent : (world.take (.submit path text)).Current world.log id := by
    refine ⟨_, ?_, hrenewed.take hlineage.records trivial trivial⟩
    rw [hlineage.generation_submit hsubmit hdiffers hconnected]
  exact hcurrent.forgets (h.take trivial) calls part snapshot value later answer hcalls hinside hid
    hlt hlog

/-! ### Recorded snapshots -/

/-- Every call but throwing everything away leaves each module with a snapshot recorded. -/
theorem recorded_take (hstep : world.InStep) (h : world.cache.Recorded) {call : Call}
    (hclean : call ≠ .clean) : (world.take call).cache.Recorded := by
  cases call with
  | reopen config tool entries =>
    simp only [World.take, put]
    exact .openAt world.disk _ config tool entries
  | submit path text => exact h.submit (ModuleId.ofPath path) text
  | addImport edge =>
    simp only [World.take, Cache.addImport]
    split_ifs
    · exact h
    · exact h
  | ask part snapshot value =>
    obtain ⟨memory, pending, heq⟩ := world.cache_ask part snapshot value
    simp only [World.take]
    rw [heq]
    exact h.observe hstep.cache world.disk snapshot.id
  | done => exact h.done world.disk
  | collect => simpa only [World.take] using h
  | clean => exact absurd rfl hclean
  | reconfigure config =>
    simp only [World.take, put]
    exact h.reconfigure hstep.cache world.disk config
  | edit disk => simpa only [World.take] using h

/-- As long as nothing was thrown away, each module with a snapshot is recorded. -/
theorem recorded_run {disk : Disk} {root : Path} (hbare : disk.IsBare root.place)
    (config : Digest) (tool : String) (entries : List ModuleId) {calls : List Call}
    (hcalls : (start disk root config tool entries).AllowsAll calls) (hclean : .clean ∉ calls) :
    ((start disk root config tool entries).run calls).cache.Recorded := by
  have hstart : (start disk root config tool entries).cache.Recorded := by
    simp only [start]
    exact .openAt disk root config tool entries
  have hreach : Reachable root (start disk root config tool entries) :=
    .start hbare config tool entries
  generalize start disk root config tool entries = world at hstart hreach hcalls
  induction calls generalizing world with
  | nil => exact hstart
  | cons call rest ih =>
    obtain ⟨hne, hrest⟩ := not_or.mp (mt List.mem_cons.mpr hclean)
    exact ih hrest (world.take call) (recorded_take hreach.inStep hstart (Ne.symm hne))
      (hreach.take hcalls.1) hcalls.2

/-! ### Changed texts -/

/-- A changed text is compared with what the manifest records.  If something is recorded, whatever
was computed about the connected modules is forgotten; otherwise no generation is raised and every
record in memory answers what it answered before. -/
theorem changed_text_reaches_connected {root : Path} (h : Reachable root world)
    {path text : String} {snapshot : Snapshot}
    (hsnapshot : world.cache.snapshots.get? (ModuleId.ofPath path) = some snapshot)
    (hchanged : Digest.ofText text ≠ snapshot.fingerprint) :
    ((world.cache.manifest.content? (ModuleId.ofPath path)).isSome → KeysApart world.log →
        ∀ other ∈ world.cache.graph.reachable [ModuleId.ofPath path],
          (world.take (.submit path text)).Forgets world.log other) ∧
      (world.cache.manifest.content? (ModuleId.ofPath path) = none → ∀ slot content,
        (world.take (.submit path text)).cache.live? slot content
            ((world.take (.submit path text)).cache.generation slot.file) =
          world.cache.live? slot content (world.cache.generation slot.file)) := by
  constructor
  · intro hrecorded hapart other hother
    obtain ⟨known, hknown⟩ := Option.isSome_iff_exists.mp hrecorded
    have hdiffers : world.cache.Differs (ModuleId.ofPath path) (Digest.ofText text) := by
      refine ⟨known, hknown, fun hsame => hchanged ?_⟩
      rw [← hsame]
      exact h.inStep.cache.recorded _ snapshot known hsnapshot hknown
    exact forgets_submit h hapart hdiffers (ImportGraph.mem_reachable_singleton.mp hother)
  · intro hnone slot content
    have hmemory := (world.cache.hears_submit (ModuleId.ofPath path) text).memory
    have hsame : (world.cache.submit (ModuleId.ofPath path) text).2.generation slot.file =
        world.cache.generation slot.file := by
      rcases world.cache.generation_submit (ModuleId.ofPath path) slot.file text with
        ⟨-, ⟨known, hknown, -⟩, -⟩ | ⟨hsame, -⟩
      · rw [hnone] at hknown
        cases hknown
      · exact hsame
    simp only [World.take]
    unfold Cache.live?
    rw [hmemory, hsame]

/-- The importer is checked twice after the text has changed; the second answer is the first one. -/
theorem changed_text_reaches_importer :
    ∃ answer : Answer, importing.cache.snapshots.get? ⟨"a"⟩ = some ⟨⟨"a"⟩, "", 1⟩ ∧
      (importing.cache.manifest.content? ⟨"a"⟩).isSome ∧
      (((importing.take (.submit "a" "x")).run [.ask (.findings .meaning) ⟨⟨"b"⟩, "", 1⟩ []]).ask
          (.findings .meaning) ⟨⟨"b"⟩, "", 1⟩ []).log =
        importing.log ++ [⟨answer, true⟩] ++ [⟨answer, false⟩] ∧
      ⟨answer, true⟩ ∈ [(⟨answer, true⟩ : Served)] := by
  have hsnapshot : importing.cache.snapshots.get? (ModuleId.ofPath "a") =
      some ⟨⟨"a"⟩, "", 1⟩ := by
    decide +kernel
  have hchanged : Digest.ofText "x" ≠ (⟨⟨"a"⟩, "", 1⟩ : Snapshot).fingerprint := by
    decide +kernel
  have hrecorded : (importing.cache.manifest.content? (ModuleId.ofPath "a")).isSome := by
    decide +kernel
  have hconnected : ⟨"b"⟩ ∈ importing.cache.graph.reachable [ModuleId.ofPath "a"] := by
    decide +kernel
  have hapart : KeysApart importing.log := by
    have hempty : importing.log = [] := by decide +kernel
    rw [hempty]
    exact keysApart_nil
  have hlog : (((importing.take (.submit "a" "x")).run
      [.ask (.findings .meaning) ⟨⟨"b"⟩, "", 1⟩ []]).ask
        (.findings .meaning) ⟨⟨"b"⟩, "", 1⟩ []).log =
      importing.log ++
        [⟨⟨.findings .meaning, ⟨"b"⟩, Digest.ofText "", .zero, "", 1, []⟩, true⟩] ++
        [⟨⟨.findings .meaning, ⟨"b"⟩, Digest.ofText "", .zero, "", 1, []⟩, false⟩] := by
    decide +kernel
  have hforgets := (changed_text_reaches_connected reachable_importing hsnapshot hchanged).1
    hrecorded hapart ⟨"b"⟩ hconnected
  refine ⟨_, hsnapshot, hrecorded, hlog, ?_⟩
  refine hforgets [.ask (.findings .meaning) ⟨⟨"b"⟩, "", 1⟩ []] _ _ _ _ _ ⟨trivial, trivial⟩ ?_ rfl
    (by decide +kernel) hlog
  exact List.forall_mem_singleton.mpr trivial

/-- After everything was thrown away a changed text is missed: the importer is served what was
computed about it before the change. -/
theorem changed_text_missed :
    ∃ (world : World) (snapshot : Snapshot) (answer : Answer), Reachable ⟨"cache"⟩ world ∧
      world.cache.snapshots.get? ⟨"a"⟩ = some snapshot ∧
      Digest.ofText "x" ≠ snapshot.fingerprint ∧
      answer.file ∈ world.cache.graph.reachable [⟨"a"⟩] ∧ ⟨answer, true⟩ ∈ world.log ∧
      ((world.take (.submit "a" "x")).ask (.findings .meaning) ⟨⟨"b"⟩, "", 1⟩ []).log =
        world.log ++ [⟨answer, false⟩] := by
  have hreach : Reachable ⟨"cache"⟩ ((start .empty ⟨"cache"⟩ .zero "" []).run
      [.submit "a" "", .submit "b" "", .clean, .addImport ⟨⟨"b"⟩, ⟨"a"⟩⟩,
        .ask (.findings .meaning) ⟨⟨"b"⟩, "", 1⟩ []]) :=
    (Reachable.start (isBare_empty _) .zero "" []).run
      ⟨trivial, trivial, trivial, trivial, trivial, trivial⟩
  refine ⟨_, ⟨⟨"a"⟩, "", 1⟩, ⟨.findings .meaning, ⟨"b"⟩, Digest.ofText "", .zero, "", 0, []⟩,
    hreach, ?_, ?_, ?_, ?_, ?_⟩ <;> decide +kernel

end Recompile.World
