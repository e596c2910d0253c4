import Recompile.Proofs.Cache.Fresh

/-!
# Texts that change while no process runs

A new process takes over what a namespace holds.  The texts of modules may have changed since, and
the process finds out when it first hears of the text of a module: somebody hands it in, or it is
read from disk before a connected module is looked up (`World.heard`, `World.firstText`).  If that
text is not the recorded one, the generation of every connected module is raised
(`World.run_of_recorded`).

So a lookup serves what was computed before the process started only if the first texts of all other
connected modules are the recorded ones, or could not be read (`World.offline_edits_are_seen`).
Nothing is assumed about how the earlier processes ended, nor about when texts are handed in.
-/

namespace Recompile.World

/-! ### First texts -/

/-- The text of a module that a process hears of in a call. -/
def heard (world : World) (id : ModuleId) : Call → Option String
  | .submit path text => if ModuleId.ofPath path = id then some text else none
  | .ask _ snapshot _ =>
    if id ∈ world.cache.wanted snapshot.id then (world.disk.readText ⟨id.text⟩).toOption else none
  | _ => none

/-- The first text of a module that a process hears of in several calls. -/
def firstText (world : World) : List Call → ModuleId → Option String
  | [], _ => none
  | call :: rest, id => (world.heard id call).or ((world.take call).firstText rest id)

/-- A lookup has to read a module that was not handed in, and cannot. -/
def Misses (world : World) (id : ModuleId) : Call → Prop
  | .ask _ snapshot _ => id ∈ world.cache.wanted snapshot.id ∧
    ∃ fault, world.disk.readText ⟨id.text⟩ = .error fault
  | _ => False

/-- One of several calls is a lookup that has to read a module that was not handed in, and
cannot. -/
def Tried : World → List Call → ModuleId → Prop
  | _, [], _ => False
  | world, call :: rest, id => world.Misses id call ∨ (world.take call).Tried rest id

/-- Every module connected to a module is at a later generation than before. -/
def Raised (before after : World) (id : ModuleId) : Prop :=
  ∀ other, before.cache.graph.Connected id other →
    (before.cache.generation other).toNat < (after.cache.generation other).toNat

variable {world : World} {id : ModuleId} {content : Digest}

/-! ### One call -/

/-- Inside a process connected modules stay connected, unless everything is thrown away. -/
lemma connected_take {call : Call} (hinside : call.IsInside) (hclean : call ≠ .clean)
    {other : ModuleId} (h : world.cache.graph.Connected id other) :
    (world.take call).cache.graph.Connected id other := by
  cases call with
  | reopen config tool entries => exact hinside.elim
  | submit path text =>
    simp only [World.take]
    rw [(world.cache.hears_submit (ModuleId.ofPath path) text).graph]
    exact h
  | addImport edge =>
    simp only [World.take, Cache.addImport]
    split_ifs
    · exact h
    · exact h.insert edge
  | ask part snapshot value =>
    obtain ⟨memory, pending, heq⟩ := world.cache_ask part snapshot value
    simp only [World.take]
    rw [heq]
    dsimp only
    rw [(world.cache.hears_observe world.disk snapshot.id).graph]
    exact h
  | done =>
    simp only [World.take, put]
    rw [(world.cache.done_frame world.disk).2.2.2.2.1]
    exact h
  | collect => simpa only [World.take] using h
  | clean => exact absurd rfl hclean
  | reconfigure config => exact hinside.elim
  | edit disk => simpa only [World.take] using h

/-- Handing in a text of a module that has another recorded text raises the connected modules. -/
lemma raised_submit (hlineage : world.Lineage) {path text : String}
    (hlt : (world.take (.submit path text)).texts < 2 ^ 64)
    (hcontent : world.cache.manifest.content? (ModuleId.ofPath path) = some content)
    (hchanged : Digest.ofText text ≠ content) :
    world.Raised (world.take (.submit path text)) (ModuleId.ofPath path) := by
  intro other hconnected
  have hdiffers : world.cache.Differs (ModuleId.ofPath path) (Digest.ofText text) :=
    ⟨content, hcontent, Ne.symm hchanged⟩
  rw [hlineage.generation_submit hlt hdiffers hconnected]
  exact Nat.lt_succ_self _

/-- Asking for a part reads the wanted modules.  One that has another text than the recorded one
raises the connected modules. -/
lemma raised_ask (hstep : world.InStep) (hlineage : world.Lineage) {part : Part}
    {snapshot : Snapshot} {value : part.Value} {text : String}
    (hlt : (world.take (.ask part snapshot value)).texts < 2 ^ 64)
    (hwanted : id ∈ world.cache.wanted snapshot.id)
    (hcontent : world.cache.manifest.content? id = some content)
    (hread : world.disk.readText ⟨id.text⟩ = .ok text) (hchanged : Digest.ofText text ≠ content) :
    world.Raised (world.take (.ask part snapshot value)) id := by
  intro other hconnected
  have hgeneration := world.generation_ask part snapshot value other
  simp only [World.take]
  rw [hgeneration]
  exact hstep.cache.raised_observe hlineage.manifests.manifest.bounded hlt hwanted hcontent hread
    hchanged hconnected

/-- In a call inside a process, something of a module is heard, and if it is not the recorded text,
the connected modules are raised; or nothing is heard, and what is recorded stays. -/
theorem take_of_recorded (hstep : world.InStep) (hlineage : world.Lineage) {call : Call}
    (hinside : call.IsInside) (hclean : call ≠ .clean) (hlt : (world.take call).texts < 2 ^ 64)
    (hcontent : world.cache.manifest.content? id = some content) :
    (∃ text, world.heard id call = some text ∧
        (Digest.ofText text = content ∨ world.Raised (world.take call) id)) ∨
      world.heard id call = none ∧ (world.take call).cache.manifest.content? id = some content ∧
        (id ∈ world.cache.unobserved →
          id ∈ (world.take call).cache.unobserved ∨ world.Misses id call) := by
  cases call with
  | reopen config tool entries => exact hinside.elim
  | submit path text =>
    by_cases hid : ModuleId.ofPath path = id
    · subst hid
      refine .inl ⟨text, if_pos rfl, ?_⟩
      by_cases hsame : Digest.ofText text = content
      · exact .inl hsame
      · exact .inr (raised_submit hlineage hlt hcontent hsame)
    · refine .inr ⟨if_neg hid, ?_, fun hunobserved => .inl ?_⟩
      · simp only [World.take]
        rw [Cache.content?_submit, if_neg (Ne.symm hid)]
        exact hcontent
      · exact Cache.mem_unobserved_submit.mpr ⟨Ne.symm hid, hunobserved⟩
  | addImport edge =>
    refine .inr ⟨rfl, ?_, fun hunobserved => .inl ?_⟩
    · simp only [World.take, Cache.addImport]
      split_ifs <;> exact hcontent
    · simp only [World.take, Cache.addImport]
      split_ifs <;> exact hunobserved
  | ask part snapshot value =>
    obtain ⟨memory, pending, heq⟩ := world.cache_ask part snapshot value
    by_cases hwanted : id ∈ world.cache.wanted snapshot.id
    · cases hread : world.disk.readText ⟨id.text⟩ with
      | error fault =>
        refine .inr ⟨?_, ?_, fun _ => .inr ⟨hwanted, fault, hread⟩⟩
        · simp only [heard, hread, hwanted, if_true]
          rfl
        · simp only [World.take]
          rw [heq]
          exact (hstep.cache.content?_observe_of_error hwanted hread).trans hcontent
      | ok text =>
        refine .inl ⟨text, ?_, ?_⟩
        · simp only [heard, hread, hwanted, if_true]
          rfl
        · by_cases hsame : Digest.ofText text = content
          · exact .inl hsame
          · exact .inr (raised_ask hstep hlineage hlt hwanted hcontent hread hsame)
    · refine .inr ⟨if_neg hwanted, ?_, fun hunobserved => .inl ?_⟩
      · simp only [World.take]
        rw [heq]
        exact (hstep.cache.content?_observe hwanted).trans hcontent
      · simp only [World.take]
        rw [heq]
        exact hstep.cache.mem_unobserved_observe.mpr ⟨hwanted, hunobserved⟩
  | done =>
    refine .inr ⟨rfl, ?_, fun hunobserved => .inl ?_⟩
    · simp only [World.take, put]
      rw [Cache.content?_manifest_done]
      exact hcontent
    · simp only [World.take, put]
      rw [(world.cache.done_frame world.disk).2.2.2.2.2.2]
      exact hunobserved
  | collect =>
    refine .inr ⟨rfl, ?_, fun hunobserved => .inl ?_⟩
    · simpa only [World.take] using hcontent
    · simpa only [World.take] using hunobserved
  | clean => exact absurd rfl hclean
  | reconfigure config => exact hinside.elim
  | edit disk =>
    refine .inr ⟨rfl, ?_, fun hunobserved => .inl ?_⟩
    · simpa only [World.take] using hcontent
    · simpa only [World.take] using hunobserved

/-! ### Several calls -/

/-- In several calls inside a process, some text of a module is the first one that is heard, and if
it is not the recorded one, the connected modules are raised; or none is heard, and the module stays
unobserved unless it could not be read. -/
theorem run_of_recorded {root : Path} (h : Reachable root world) {calls : List Call}
    (hcalls : world.AllowsAll calls) (hinside : ∀ call ∈ calls, call.IsInside)
    (hclean : .clean ∉ calls) (hlt : (world.run calls).texts < 2 ^ 64)
    (hcontent : world.cache.manifest.content? id = some content) :
    (∃ text, world.firstText calls id = some text ∧
        (Digest.ofText text = content ∨ world.Raised (world.run calls) id)) ∨
      world.firstText calls id = none ∧ (id ∈ world.cache.unobserved →
        id ∈ (world.run calls).cache.unobserved ∨ world.Tried calls id) := by
  induction calls generalizing world with
  | nil => exact .inr ⟨rfl, .inl⟩
  | cons call rest ih =>
    obtain ⟨hne, hcleanRest⟩ := not_or.mp (mt List.mem_cons.mpr hclean)
    have hcall := hinside call List.mem_cons_self
    have hinsideRest := fun other hother => hinside other (List.mem_cons_of_mem call hother)
    have htake : (world.take call).texts < 2 ^ 64 :=
      (texts_le_run (world.take call) rest).trans_lt hlt
    have hlineage := h.lineage ((texts_le_take world call).trans_lt htake)
    have hreach := h.take hcalls.1
    have hgrow := hreach.generation_le_run hcalls.2 hinsideRest hcleanRest hlt
    rcases take_of_recorded h.inStep hlineage hcall (Ne.symm hne) htake hcontent with
      ⟨text, hheard, htext⟩ | ⟨hheard, hkept, hunobserved⟩
    · refine .inl ⟨text, by simp only [firstText, hheard, Option.some_or], htext.imp_right ?_⟩
      exact fun hraised other hconnected => (hraised other hconnected).trans_le (hgrow other)
    · rcases ih hreach hcalls.2 hinsideRest hcleanRest hlt hkept with
        ⟨text, hfirst, htext⟩ | ⟨hfirst, hrest⟩
      · refine .inl ⟨text, by simp only [firstText, hheard, hfirst, Option.none_or],
          htext.imp_right fun hraised other hconnected => ?_⟩
        have hle := hlineage.generation_le_take hcall (Ne.symm hne) htake other
        exact hle.trans_lt (hraised other (connected_take hcall (Ne.symm hne) hconnected))
      · refine .inr ⟨by simp only [firstText, hheard, hfirst, Option.none_or], fun hold => ?_⟩
        rcases hunobserved hold with hkeeps | hmisses
        · exact (hrest hkeeps).imp_right .inr
        · exact .inr (.inl hmisses)

/-- Connected modules stay connected over several calls. -/
lemma connected_run {calls : List Call} (hinside : ∀ call ∈ calls, call.IsInside)
    (hclean : .clean ∉ calls) {other : ModuleId} (h : world.cache.graph.Connected id other) :
    (world.run calls).cache.graph.Connected id other := by
  induction calls generalizing world with
  | nil => exact h
  | cons call rest ih =>
    obtain ⟨hne, hrest⟩ := not_or.mp (mt List.mem_cons.mpr hclean)
    exact ih (fun other hother => hinside other (List.mem_cons_of_mem _ hother)) hrest
      (connected_take (hinside call List.mem_cons_self) (Ne.symm hne) h)

/-! ### A new process -/

/-- After a lookup no other connected module is unobserved. -/
lemma not_mem_unobserved_ask (hstep : world.InStep) (part : Part) (snapshot : Snapshot)
    (value : part.Value) (hconnected : world.cache.graph.Connected snapshot.id id)
    (hne : id ≠ snapshot.id) : id ∉ (world.ask part snapshot value).cache.unobserved := by
  obtain ⟨memory, pending, heq⟩ := world.cache_ask part snapshot value
  rw [heq]
  exact hstep.cache.not_mem_unobserved_observe hconnected hne

/-- If the generation of a module is raised inside a process, an answer about the module that is not
computed then was computed since. -/
lemma computed_of_raised {root : Path} (h : Reachable root world) (hapart : KeysApart world.log)
    {calls : List Call} (hcalls : world.AllowsAll calls) (hinside : ∀ call ∈ calls, call.IsInside)
    {part : Part} {snapshot : Snapshot} {value : part.Value}
    (hlt : ((world.run calls).ask part snapshot value).texts < 2 ^ 64)
    (hraised : (world.cache.generation snapshot.id).toNat <
      (((world.run calls).ask part snapshot value).cache.generation snapshot.id).toNat)
    {later : List Served} {answer : Answer}
    (hlog : ((world.run calls).ask part snapshot value).log =
      world.log ++ later ++ [⟨answer, false⟩]) : ⟨answer, true⟩ ∈ later := by
  have htexts := (texts_le_run world calls).trans
    (texts_le_take (world.run calls) (.ask part snapshot value))
  -- Nothing was known of the generations after the one that the module had.
  have hrenewed : world.Renewed world.log snapshot.id
      (world.cache.generation snapshot.id).toNat.succ :=
    (h.lineage (htexts.trans_lt hlt)).renewed hapart (Nat.lt_succ_self _)
  exact (hrenewed.run h hcalls hinside).computed_of_ask rfl hraised hlog

/-- In several calls inside a process that end with a lookup, some text of another connected module
with a recorded text is heard, and if the first one is not the recorded text, the connected modules
are raised; or none is heard, because the module could not be read. -/
lemma ask_of_recorded {root : Path} (h : Reachable root world) {calls : List Call}
    (hcalls : world.AllowsAll calls) (hinside : ∀ call ∈ calls, call.IsInside)
    (hclean : .clean ∉ calls) {part : Part} {snapshot : Snapshot} {value : part.Value}
    (hlt : ((world.run calls).ask part snapshot value).texts < 2 ^ 64)
    (hcontent : world.cache.manifest.content? id = some content)
    (hunobserved : id ∈ world.cache.unobserved)
    (hseen : id ∉ ((world.run calls).ask part snapshot value).cache.unobserved) :
    (∃ text, world.firstText (calls ++ [.ask part snapshot value]) id = some text ∧
        (Digest.ofText text = content ∨
          world.Raised ((world.run calls).ask part snapshot value) id)) ∨
      world.firstText (calls ++ [.ask part snapshot value]) id = none ∧
        world.Tried (calls ++ [.ask part snapshot value]) id := by
  have hrun : world.run (calls ++ [.ask part snapshot value]) =
      (world.run calls).ask part snapshot value := run_concat world calls _
  have hask : (Call.ask part snapshot value).IsInside := trivial
  have hallowed : (world.run calls).Allows (.ask part snapshot value) := trivial
  have hinsideAll : ∀ call ∈ calls ++ [.ask part snapshot value], call.IsInside := by
    intro call hcall
    rcases List.mem_append.mp hcall with hcall | hcall
    · exact hinside call hcall
    · rw [List.mem_singleton.mp hcall]
      exact hask
  have hcleanAll : .clean ∉ calls ++ [.ask part snapshot value] := by
    intro hcall
    rcases List.mem_append.mp hcall with hcall | hcall
    · exact hclean hcall
    · cases List.mem_singleton.mp hcall
  rw [← hrun] at hlt hseen ⊢
  rcases run_of_recorded h (hcalls.concat hallowed) hinsideAll hcleanAll hlt hcontent with
    hheard | ⟨hnone, htried⟩
  · exact .inl hheard
  · exact .inr ⟨hnone, (htried hunobserved).resolve_left hseen⟩

/-- After a process has opened a namespace, texts may be handed in, parts may be looked up and
others may change the disk in any order.  A lookup then leaves no other connected module unobserved.
If it serves what was not computed since, then of every other connected module with a recorded text
the first text that the process heard of is the recorded one, or it heard of none and could not read
the module. -/
theorem offline_edits_are_seen {root : Path} {world opened : World} (h : Reachable root world)
    (hapart : KeysApart world.log) {config : Digest} {tool : String} {entries : List ModuleId}
    (hopened : opened = world.take (.reopen config tool entries)) {calls : List Call}
    (hcalls : opened.AllowsAll calls) (hinside : ∀ call ∈ calls, call.IsInside)
    (hclean : .clean ∉ calls) (part : Part) (snapshot : Snapshot) (value : part.Value)
    (hlt : ((opened.run calls).ask part snapshot value).texts < 2 ^ 64) :
    (∀ other, opened.cache.graph.Connected snapshot.id other → other ≠ snapshot.id →
        other ∉ ((opened.run calls).ask part snapshot value).cache.unobserved) ∧
      ∀ (later : List Served) (answer : Answer),
        ((opened.run calls).ask part snapshot value).log = world.log ++ later ++ [⟨answer, false⟩] →
        ⟨answer, true⟩ ∉ later →
        ∀ other content, opened.cache.graph.Connected snapshot.id other → other ≠ snapshot.id →
          opened.cache.manifest.content? other = some content →
          (∃ text, opened.firstText (calls ++ [.ask part snapshot value]) other = some text ∧
              Digest.ofText text = content) ∨
            opened.firstText (calls ++ [.ask part snapshot value]) other = none ∧
              opened.Tried (calls ++ [.ask part snapshot value]) other := by
  have hallowed : world.Allows (.reopen config tool entries) := trivial
  have hreach : Reachable root opened := hopened ▸ h.take hallowed
  have hlogs : opened.log = world.log := by
    rw [hopened]
    simp only [World.take, put]
  have hunobserved : ∀ other, opened.cache.graph.Connected snapshot.id other →
      other ≠ snapshot.id →
      other ∉ ((opened.run calls).ask part snapshot value).cache.unobserved :=
    fun other hconnected hne => not_mem_unobserved_ask (hreach.run hcalls).inStep part snapshot
      value (connected_run hinside hclean hconnected) hne
  refine ⟨hunobserved, fun later answer hlog hnew other content hconnected hne hcontent => ?_⟩
  have hrecorded : other ∈ opened.cache.unobserved := by
    rw [hopened] at hcontent ⊢
    simp only [World.take, put] at hcontent ⊢
    exact Cache.mem_unobserved_openAt hcontent
  rcases ask_of_recorded hreach hcalls hinside hclean hlt hcontent hrecorded
    (hunobserved other hconnected hne) with ⟨text, htext, hsame | hraised⟩ | htried
  · exact .inl ⟨text, htext, hsame⟩
  · -- Then what is served was computed by this process.
    rw [← hlogs] at hlog hapart
    exact absurd (computed_of_raised hreach hapart hcalls hinside hlt
      (hraised snapshot.id hconnected.symm) hlog) hnew
  · exact .inr htried

/-- The place of the manifest on an empty disk can be written to. -/
lemma write_manifest : ((Write.mk ⟨"cache/00000000000000000000000000000000/manifest.json"⟩ []).run
    .empty).1.isOk := by
  decide +kernel

/-- The import is stored, without any results. -/
lemma done_importing : ∃ left, importing.cache.done importing.disk =
    (.flushed 0,
      { importing.cache with
        manifest := importing.cache.flushedManifest, pending := ∅, dirty := false }, left) := by
  have hdirty : importing.cache.dirty = true := by decide +kernel
  have hrecords : importing.cache.pendingRecords = [] := by decide +kernel
  have hdisk : importing.disk = .empty := by decide +kernel
  have hpath : importing.cache.directory.join Manifest.fileName =
      ⟨"cache/00000000000000000000000000000000/manifest.json"⟩ := by
    decide +kernel
  have hwrite : ((Write.mk (importing.cache.directory.join Manifest.fileName) []).run
      importing.disk).1.isOk := by
    rw [hpath, hdisk]
    exact write_manifest
  exact Cache.done_of_no_records hdirty hrecords hwrite

/-- The cache of a process that takes the import over. -/
lemma cache_importing : ((importing.take .done).take (.reopen .zero "" [])).cache =
    { Cache.fresh ⟨"cache"⟩ .zero "" [] with
      graph := ImportGraph.empty.insertAll importing.cache.flushedManifest.edges
      unobserved := Cache.unseen .empty importing.cache.flushedManifest
      manifest := importing.cache.flushedManifest } := by
  obtain ⟨left, hdone⟩ := done_importing
  have hroot : importing.cache.root = ⟨"cache"⟩ := by decide +kernel
  have hconfig : importing.cache.config = .zero := by decide +kernel
  have htool : importing.cache.tool = "" := by decide +kernel
  have hcompatible : importing.cache.flushedManifest.isCompatible importing.cache.tool
      importing.cache.config := by
    decide +kernel
  have hopen := Cache.openAt_done hdone hcompatible []
  rw [hroot, hconfig, htool] at hopen
  simp only [World.take, put, hdone]
  rw [hroot, hopen]

/-- A process that takes the import over and is asked for the importer has to see the imported
module. -/
theorem offline_edits_are_seen_importing :
    ∃ world opened : World, opened = world.take (.reopen .zero "" []) ∧
      opened.cache.graph.Connected ⟨"b"⟩ ⟨"a"⟩ ∧
      opened.cache.manifest.content? ⟨"a"⟩ = some (Digest.ofText "") ∧
      ⟨"a"⟩ ∉ (opened.ask .output ⟨⟨"b"⟩, "", 1⟩ .nothing).cache.unobserved ∧
      ∀ (later : List Served) (answer : Answer),
        (opened.ask .output ⟨⟨"b"⟩, "", 1⟩ .nothing).log =
          world.log ++ later ++ [⟨answer, false⟩] → ⟨answer, true⟩ ∉ later →
        (∃ text, opened.firstText [.ask .output ⟨⟨"b"⟩, "", 1⟩ .nothing] ⟨"a"⟩ = some text ∧
            Digest.ofText text = Digest.ofText "") ∨
          opened.firstText [.ask .output ⟨⟨"b"⟩, "", 1⟩ .nothing] ⟨"a"⟩ = none ∧
            opened.Tried [.ask .output ⟨⟨"b"⟩, "", 1⟩ .nothing] ⟨"a"⟩ := by
  have hallowed : importing.Allows .done := trivial
  have hreach := reachable_importing.take hallowed
  have hlog : (importing.take .done).log = [] := by
    simp only [World.take, put]
    decide +kernel
  have htexts : (importing.take .done).texts = 1 := by
    simp only [World.take, put]
    decide +kernel
  have hcache := cache_importing
  generalize importing.take .done = world at hreach hlog htexts hcache
  obtain ⟨opened, hopened⟩ : ∃ opened, opened = world.take (.reopen .zero "" []) := ⟨_, rfl⟩
  rw [← hopened] at hcache
  have hconnected : opened.cache.graph.Connected ⟨"b"⟩ ⟨"a"⟩ := by
    rw [hcache, ← ImportGraph.mem_reachable_singleton]
    decide +kernel
  have hcontent : opened.cache.manifest.content? ⟨"a"⟩ = some (Digest.ofText "") := by
    rw [hcache]
    decide +kernel
  have hreached : (opened.cache.graph.reachable [⟨"b"⟩]).length = 2 := by
    rw [hcache]
    decide +kernel
  have hlt : ((opened.run []).ask .output ⟨⟨"b"⟩, "", 1⟩ .nothing).texts < 2 ^ 64 := by
    rw [run_nil]
    simp only [World.ask, hreached]
    rw [hopened]
    simp only [World.take, put, htexts]
    decide
  have hapart : KeysApart world.log := by
    rw [hlog]
    exact keysApart_nil
  have hcalls : opened.AllowsAll [] := trivial
  have hseen := offline_edits_are_seen hreach hapart hopened hcalls (List.forall_mem_nil _)
    List.not_mem_nil .output ⟨⟨"b"⟩, "", 1⟩ .nothing hlt
  rw [run_nil, List.nil_append] at hseen
  have hne : (⟨"a"⟩ : ModuleId) ≠ ⟨"b"⟩ := by decide
  exact ⟨world, opened, hopened, hconnected, hcontent, hseen.1 _ hconnected hne,
    fun later answer hserved hnew => hseen.2 later answer hserved hnew _ _ hconnected hne hcontent⟩

end Recompile.World
