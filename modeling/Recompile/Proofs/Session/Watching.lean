import Mathlib.Data.Nat.ModEq
import Recompile.Proofs.Session.Transparent

/-!
# Watching

A session that generates its targets again and again goes through them in rounds.  Every pass over
the targets after the first one belongs to watching, and at its start, and then only, the import
tree is checked again.

What the compiler is asked meanwhile is seen by noting it down: a compiler that notes its questions
does what it did before (`Session.generate_noting`).  A session is `Building` with the targets that
it has generated so far; each of them was generated by a session that had generated those before it
(`Session.Building.upTo`).

If the number of targets is always the same, the rounds count the calls modulo that number, and the
compiler is asked about each module of the import tree that has a text, in both passes and once
each, in the first round of every pass but the first (`Session.import_tree_is_rechecked`).
-/

namespace Recompile

/-! ### Rounds -/

namespace Rounds

/-- There are more targets than the place of a round that has begun. -/
lemma round_begin_lt (rounds : Rounds) (targets : Nat) :
    (rounds.begin targets).round < max targets 1 := by
  unfold begin
  simp only
  split_ifs with h
  · exact Nat.lt_of_lt_of_le Nat.zero_lt_one (le_max_right _ _)
  · exact Nat.lt_of_not_le h

/-- Watching does not end. -/
lemma mode_begin (rounds : Rounds) (targets : Nat) (h : rounds.mode = .watch) :
    (rounds.begin targets).mode = .watch := by
  unfold begin
  simp only
  split_ifs
  · rfl
  · exact h

/-- The round that begins after so many calls for the same number of targets. -/
def after (targets calls : Nat) : Rounds where
  round := calls % max targets 1
  targets := max targets 1
  mode := if max targets 1 ≤ calls then .watch else .build

/-- The first round. -/
lemma begin_start (targets : Nat) : start.begin targets = after targets 0 := by
  have hpos : ¬ max targets 1 ≤ 0 := by omega
  unfold begin after start
  simp only [if_neg hpos, Nat.zero_mod]

/-- The round after a round. -/
lemma begin_finish (targets calls : Nat) :
    (after targets calls).finish.begin targets = after targets (calls + 1) := by
  unfold begin finish after
  simp only
  generalize hcount : max targets 1 = count
  have hpos : 0 < count := by omega
  have hsmall : calls % count < count := Nat.mod_lt calls hpos
  have hle : calls % count ≤ calls := Nat.mod_le calls count
  by_cases hlast : count ≤ calls % count + 1
  · -- All targets had their turn.
    have hnext : (calls + 1) % count = 0 := by
      rw [← Nat.mod_add_mod, show calls % count + 1 = count by omega, Nat.mod_self]
    have hwatch : count ≤ calls + 1 := by omega
    rw [if_pos hlast, hnext, if_pos hwatch]
  · have hnext : (calls + 1) % count = calls % count + 1 := by
      rw [← Nat.mod_add_mod]
      exact Nat.mod_eq_of_lt (Nat.lt_of_not_le hlast)
    have hmode : count ≤ calls ↔ count ≤ calls + 1 := by
      refine ⟨Nat.le_succ_of_le, fun h => ?_⟩
      by_contra hless
      rw [Nat.mod_eq_of_lt (Nat.lt_of_not_le hless)] at hlast
      omega
    rw [if_neg hlast, hnext]
    simp only [hmode]

/-- The tree is checked again at the start of each pass but the first. -/
lemma rechecks_after (targets calls : Nat) :
    (after targets calls).rechecks = true ↔ max targets 1 ≤ calls ∧ max targets 1 ∣ calls := by
  unfold rechecks after
  simp only [Bool.and_eq_true, decide_eq_true_eq, Nat.dvd_iff_mod_eq_zero]
  by_cases h : max targets 1 ≤ calls
  · simp [h]
  · simp [h]

end Rounds

/-! ### What stays in a cache -/

namespace Cache

/-- The import tree starts at these entries, and each snapshot is listed under its module. -/
structure Rooted (cache : Cache) (entries : List ModuleId) : Prop where
  /-- The tree starts there. -/
  entries : cache.entries = entries
  /-- Snapshots are where they belong. -/
  named : cache.snapshots.Named

/-- Recording a text leaves the entries. -/
lemma entries_recordContent (cache : Cache) (id : ModuleId) (content : Digest) :
    (cache.recordContent id content).entries = cache.entries := by
  unfold recordContent
  simp only
  split_ifs <;> rfl

/-- Reading the text of a module leaves the entries. -/
lemma entries_observeOne (disk : Disk) (cache : Cache) (id : ModuleId) :
    (observeOne disk cache id).entries = cache.entries := by
  unfold observeOne
  simp only
  split
  · rfl
  · rw [entries_recordContent]

namespace Rooted

variable {cache : Cache} {entries : List ModuleId}

/-- Opening a namespace. -/
lemma openAt (disk : Disk) (root : Path) (config : Digest) (tool : String)
    (entries : List ModuleId) : (Cache.openAt disk root config tool entries).1.Rooted entries := by
  have hsnapshots := ((fresh root config tool entries).attach_frame disk).2.2.2.2.2
  constructor
  · unfold Cache.openAt attach discard
    split
    · split_ifs <;> rfl
    · rfl
    · rfl
  · unfold Cache.openAt
    rw [hsnapshots]
    exact SnapshotTable.named_empty

/-- Throwing everything away. -/
lemma clean (h : cache.Rooted entries) (disk : Disk) : (cache.clean disk).1.Rooted entries :=
  ⟨h.entries, h.named⟩

/-- Handing in a text. -/
lemma submit (h : cache.Rooted entries) (id : ModuleId) (text : String) :
    (cache.submit id text).2.Rooted entries := by
  unfold Cache.submit
  constructor
  · simp only [entries_recordContent]
    exact h.entries
  · simp only [snapshots_recordContent]
    exact h.named.submit id text

/-- Recording an import. -/
lemma addImport (h : cache.Rooted entries) (edge : Edge) :
    (cache.addImport edge).Rooted entries := by
  unfold Cache.addImport
  split_ifs
  · exact h
  · exact ⟨h.entries, h.named⟩

/-- Reading texts. -/
lemma observe (h : cache.Rooted entries) (disk : Disk) (id : ModuleId) :
    (cache.observe disk id).Rooted entries := by
  refine ⟨?_, named_observe h.named disk id⟩
  unfold Cache.observe
  have hentries := h.entries
  generalize (cache.graph.reachable [id]).filter _ = ids
  clear h
  induction ids generalizing cache with
  | nil => exact hentries
  | cons other rest ih => exact ih ((entries_observeOne disk cache other).trans hentries)

/-- Asking for a part. -/
lemma answer {σ : Type} (h : cache.Rooted entries) (disk : Disk) (part : Part) (snapshot : Snapshot)
    (compute : σ → part.Value × σ) (state : σ) :
    (cache.answer disk part snapshot compute state).2.1.Rooted entries := by
  have hobserved := h.observe disk snapshot.id
  obtain ⟨memory, hlookup⟩ := cache.lookup_frame disk part snapshot
  rcases cache.answer_cases disk part snapshot compute state with ⟨value, -, heq⟩ | ⟨-, heq⟩
  · rw [heq, hlookup]
    exact ⟨hobserved.entries, hobserved.named⟩
  · rw [heq, hlookup]
    exact ⟨hobserved.entries, hobserved.named⟩

/-- Storing the results. -/
lemma done (h : cache.Rooted entries) (disk : Disk) : (cache.done disk).2.1.Rooted entries := by
  unfold Cache.done
  split_ifs
  · exact h
  · split
    · exact h
    · simp only
      split <;> exact ⟨h.entries, h.named⟩

end Rooted

end Cache

/-! ### Questions -/

/-- What a compiler is asked. -/
inductive Question where
  /-- To compile a module. -/
  | emit (snapshot : Snapshot)
  /-- To check a module in one pass. -/
  | check (pass : Pass) (snapshot : Snapshot)
  /-- To check the options. -/
  | options
deriving DecidableEq

variable {σ : Type}

/-- The compiler that notes what it is asked beside its state. -/
def Compiler.noting (compiler : Compiler σ) : Compiler (σ × List Question) where
  version := compiler.version
  emit snapshot state :=
    let (emission, left) := compiler.emit snapshot state.1
    (emission, left, state.2 ++ [.emit snapshot])
  check pass snapshot state :=
    let (diagnostics, left) := compiler.check pass snapshot state.1
    (diagnostics, left, state.2 ++ [.check pass snapshot])
  checkOptions state :=
    let (diagnostics, left) := compiler.checkOptions state.1
    (diagnostics, left, state.2 ++ [.options])

/-- Checking a module is the same, and is noted. -/
lemma Compiler.check_noting (compiler : Compiler σ) (pass : Pass) (snapshot : Snapshot) (state : σ)
    (asked : List Question) :
    compiler.noting.check pass snapshot (state, asked) =
      ((compiler.check pass snapshot state).1, (compiler.check pass snapshot state).2,
        asked ++ [.check pass snapshot]) :=
  rfl

namespace Session

variable {compiler : Compiler σ}

/-- The questions about modules that are checked in both passes. -/
def questions (snapshots : List Snapshot) : List Question :=
  snapshots.flatMap fun snapshot => [.check .form snapshot, .check .meaning snapshot]

/-- Checking modules asks about each of them in both passes. -/
lemma recheck_noting (compiler : Compiler σ) (snapshots : List Snapshot) (state : σ)
    (asked : List Question) :
    recheck compiler.noting snapshots (state, asked) =
      ((recheck compiler snapshots state).1, (recheck compiler snapshots state).2,
        asked ++ questions snapshots) := by
  induction snapshots generalizing state asked with
  | nil => exact congrArg (fun noted => ([], state, noted)) (List.append_nil asked).symm
  | cons snapshot rest ih =>
    have hquestions : questions (snapshot :: rest) =
        [.check .form snapshot] ++ ([.check .meaning snapshot] ++ questions rest) := rfl
    rw [hquestions, ← List.append_assoc, ← List.append_assoc]
    unfold recheck
    simp only [Compiler.check_noting, ih]

/-- Generating a target is the same with a compiler that notes what it is asked; it is asked about
the import tree when that is checked again, and about nothing else. -/
theorem generate_noting (compiler : Compiler σ) (session : Session) (disk : Disk) (targets : Nat)
    (state : σ) (asked : List Question) :
    session.generate compiler.noting disk targets (state, asked) =
      let plain := session.generate compiler disk targets state
      { result := plain.result, session := plain.session, disk := plain.disk
        state := (plain.state, asked ++
          questions (if (session.rounds.begin targets).rechecks then session.tree else [])) } := by
  unfold generate
  simp only [recheck_noting]

/-! ### The import tree -/

/-- A snapshot is the current one of a module that is connected to one of these entries. -/
def InTree (session : Session) (entries : List ModuleId) (snapshot : Snapshot) : Prop :=
  (∃ entry ∈ entries, session.cache.graph.Connected entry snapshot.id) ∧
    session.cache.snapshots.get? snapshot.id = some snapshot

/-- The import tree of a session starts at these entries, and so many rounds are over. -/
structure Tracks (session : Session) (entries : List ModuleId) (rounds : Rounds) : Prop where
  /-- The tree starts there. -/
  cache : session.cache.Rooted entries
  /-- These rounds are over. -/
  rounds : session.rounds = rounds

variable {session : Session} {entries : List ModuleId} {rounds : Rounds}

/-- The modules that are checked again are those of the import tree that have a text. -/
lemma Tracks.mem_tree (h : session.Tracks entries rounds) (snapshot : Snapshot) :
    snapshot ∈ session.tree ↔ session.InTree entries snapshot := by
  unfold tree InTree Cache.walk
  rw [List.mem_filterMap, h.cache.entries, ← ImportGraph.mem_reachable]
  constructor
  · rintro ⟨id, hreachable, hcurrent⟩
    obtain rfl := h.cache.named id snapshot hcurrent
    exact ⟨hreachable, hcurrent⟩
  · rintro ⟨hreachable, hcurrent⟩
    exact ⟨snapshot.id, hreachable, hcurrent⟩

/-- Each of them is listed once. -/
lemma Tracks.nodup_tree (h : session.Tracks entries rounds) : session.tree.Nodup := by
  refine (ImportGraph.nodup_reachable _ _).filterMap fun first second snapshot hfirst hsecond => ?_
  rw [← h.cache.named first snapshot hfirst, ← h.cache.named second snapshot hsecond]

/-- About different modules nothing is asked twice. -/
lemma nodup_questions {snapshots : List Snapshot} (h : snapshots.Nodup) :
    (questions snapshots).Nodup := by
  refine List.nodup_flatMap.mpr ⟨fun snapshot _ => by simp, h.imp fun {first second} hne => ?_⟩
  simp [Function.onFun, List.disjoint_left, hne]

/-- What is asked about modules that are checked. -/
lemma mem_questions {snapshots : List Snapshot} {question : Question} :
    question ∈ questions snapshots ↔
      ∃ pass, ∃ snapshot ∈ snapshots, question = .check pass snapshot := by
  unfold questions
  rw [List.mem_flatMap]
  constructor
  · rintro ⟨snapshot, hsnapshot, hquestion⟩
    rcases List.mem_pair.mp hquestion with rfl | rfl
    · exact ⟨.form, snapshot, hsnapshot, rfl⟩
    · exact ⟨.meaning, snapshot, hsnapshot, rfl⟩
  · rintro ⟨pass, snapshot, hsnapshot, rfl⟩
    refine ⟨snapshot, hsnapshot, ?_⟩
    cases pass with
    | form => exact List.mem_cons_self
    | meaning => exact List.mem_cons_of_mem _ (List.mem_singleton_self _)

/-! ### What stays in a session -/

namespace Tracks

variable {disk : Disk} {snapshot : Snapshot}

/-- Asking for a part. -/
lemma ask (h : session.Tracks entries rounds) (compiler : Compiler σ) (disk : Disk)
    (snapshot : Snapshot) (part : Part) (state : σ) :
    (session.ask compiler disk snapshot part state).2.1.Tracks entries rounds :=
  ⟨h.cache.answer disk part snapshot (compiler.compute snapshot part) state, h.rounds⟩

/-- Asking for the diagnostics. -/
lemma findings (h : session.Tracks entries rounds) (compiler : Compiler σ) (disk : Disk)
    (snapshot : Snapshot) (state : σ) :
    (session.findings compiler disk snapshot state).2.1.Tracks entries rounds :=
  (h.ask compiler disk snapshot (.findings .form) state).ask compiler disk snapshot
    (.findings .meaning) (session.ask compiler disk snapshot (.findings .form) state).2.2

/-- Checking a module after it was compiled. -/
lemma review (h : session.Tracks entries rounds) (compiler : Compiler σ) (disk : Disk)
    (snapshot : Snapshot) (output : Output) (state : σ) :
    (session.review compiler disk snapshot output state).1.Tracks entries rounds := by
  have hfindings := h.findings compiler disk snapshot state
  unfold Session.review
  rcases hresult : session.findings compiler disk snapshot state with ⟨diagnostics, found, left⟩
  rw [hresult] at hfindings
  split_ifs
  · exact ⟨hfindings.cache.done disk, hfindings.rounds⟩
  · exact ⟨hfindings.cache, hfindings.rounds⟩
  · exact h

/-- Handing in a module. -/
lemma transform (h : session.Tracks entries rounds) (compiler : Compiler σ) (disk : Disk)
    (id : ModuleId) (text : String) (state : σ) :
    (session.transform compiler disk id text state).session.Tracks entries rounds := by
  unfold Session.transform
  split_ifs with haccepts
  · have hsubmit := h.cache.submit id text
    rcases hsubmitted : session.cache.submit id text with ⟨snapshot, submitted⟩
    rw [hsubmitted] at hsubmit
    have hstart : ({ session with cache := submitted } : Session).Tracks entries rounds :=
      ⟨hsubmit, h.rounds⟩
    have hask := hstart.ask compiler disk snapshot .output state
    rcases hasked : ({ session with cache := submitted } : Session).ask compiler disk snapshot
      .output state with ⟨output, asked, middle⟩
    rw [hasked] at hask
    have hreview := Tracks.review hask compiler disk snapshot output middle
    simp only [hasked]
    rcases hreviewed : asked.review compiler disk snapshot output middle with
      ⟨reviewed, left, last⟩
    rw [hreviewed] at hreview
    simp only
    split_ifs
    · exact hreview
    · unfold collect
      split
      · exact ⟨hreview.cache, hreview.rounds⟩
      · exact hreview
  · exact h

/-- Resolving an import. -/
lemma resolveImport (h : session.Tracks entries rounds) (edge : Edge) :
    (session.resolveImport edge).Tracks entries rounds := by
  unfold Session.resolveImport
  split_ifs
  · exact ⟨h.cache.addImport edge, h.rounds⟩
  · exact h

/-- Generating a target ends a round. -/
lemma generate (h : session.Tracks entries rounds) (compiler : Compiler σ) (disk : Disk)
    (targets : Nat) (state : σ) :
    (session.generate compiler disk targets state).session.Tracks entries
      (rounds.begin targets).finish := by
  have hdone := h.cache.done disk
  unfold Session.generate
  simp only [report]
  rcases hresult : session.cache.done disk with ⟨flush, cache, left⟩
  rw [hresult] at hdone
  exact ⟨hdone, by rw [h.rounds]⟩

/-- A session is opened with the first round. -/
lemma tracks_opened (options : Options) (selection : Selection) (version : String)
    (entries : List ModuleId) (disk : Disk) :
    (opened options selection version entries disk).1.Tracks entries .start := by
  have hcache := Cache.Rooted.openAt disk options.cacheRoot
    (options.fingerprint version entries) version entries
  unfold opened
  simp only
  rcases hresult : Cache.openAt disk options.cacheRoot (options.fingerprint version entries)
    version entries with ⟨cache, left⟩
  rw [hresult] at hcache
  cases options.clean with
  | true => exact ⟨hcache.clean left, rfl⟩
  | false => exact ⟨hcache, rfl⟩

/-- A session starts with the first round. -/
lemma start {options : Options} {state : σ} {after : After σ Unit}
    (hstart : Session.start compiler options entries disk state = .ok after) :
    after.session.Tracks entries .start := by
  unfold Session.start at hstart
  split at hstart
  · cases hstart
  · rename_i selection _
    have hopened := tracks_opened options selection compiler.version entries disk
    rcases hresult : opened options selection compiler.version entries disk with ⟨session, left⟩
    rw [hresult] at hopened
    simp only [hresult] at hstart
    split_ifs at hstart
    · obtain rfl := Except.ok.inj hstart
      exact ⟨hopened.cache, hopened.rounds⟩
    · obtain rfl := Except.ok.inj hstart
      exact hopened

end Tracks

/-! ### Turns -/

/-- One call that generated a target. -/
structure Turn where
  /-- The session before. -/
  before : Session
  /-- The number of targets that the host gave. -/
  targets : Nat
  /-- What it came to. -/
  generated : Generated
  /-- What the compiler was asked meanwhile. -/
  asked : List Question

/-- Generating a target, with the questions to the compiler. -/
def turn (compiler : Compiler σ) (session : Session) (disk : Disk) (targets : Nat) (state : σ) :
    Turn where
  before := session
  targets := targets
  generated := (session.generate compiler disk targets state).result
  asked := (session.generate compiler.noting disk targets (state, [])).state.2

/-- The sessions of a compiler whose import tree starts at these entries, with the targets that were
generated.  The disk and the state of the compiler may be anything at each call. -/
inductive Building (compiler : Compiler σ) (entries : List ModuleId) :
    List Turn → Session → Prop where
  /-- A session starts. -/
  | start {options : Options} {disk : Disk} {state : σ} {after : After σ Unit}
    (hstart : Session.start compiler options entries disk state = .ok after) :
    Building compiler entries [] after.session
  /-- A module is handed in. -/
  | transform {turns : List Turn} {session : Session} (h : Building compiler entries turns session)
    (disk : Disk) (id : ModuleId) (text : String) (state : σ) :
    Building compiler entries turns (session.transform compiler disk id text state).session
  /-- An import is resolved. -/
  | resolveImport {turns : List Turn} {session : Session}
    (h : Building compiler entries turns session) (edge : Edge) :
    Building compiler entries turns (session.resolveImport edge)
  /-- A target is generated. -/
  | generate {turns : List Turn} {session : Session} (h : Building compiler entries turns session)
    (disk : Disk) (targets : Nat) (state : σ) :
    Building compiler entries (turns ++ [session.turn compiler disk targets state])
      (session.generate compiler disk targets state).session

/-- What a turn came to, and what the compiler was asked. -/
lemma turn_spec (h : session.Tracks entries rounds) (compiler : Compiler σ) (disk : Disk)
    (targets : Nat) (state : σ) :
    let turn := session.turn compiler disk targets state
    turn.generated.round = (rounds.begin targets).round ∧
      turn.generated.mode = (rounds.begin targets).mode ∧
      turn.asked = questions (if (rounds.begin targets).rechecks then session.tree else []) := by
  unfold turn
  simp only [generate_noting, List.nil_append, h.rounds]
  exact ⟨by rw [← h.rounds]; rfl, by rw [← h.rounds]; rfl, trivial⟩

namespace Building

variable {turns front rest : List Turn} {turn : Turn}

/-- Each target was generated by a session that had generated those before it. -/
lemma upTo (h : Building compiler entries turns session) (hturns : turns = front ++ turn :: rest) :
    Building compiler entries front turn.before ∧
      ∃ disk state, turn = turn.before.turn compiler disk turn.targets state := by
  induction h generalizing rest with
  | start _ => simp at hturns
  | transform _ _ _ _ _ ih => exact ih hturns
  | resolveImport _ _ ih => exact ih hturns
  | generate h disk targets state ih =>
    rcases List.eq_nil_or_concat' rest with rfl | ⟨others, last, rfl⟩
    · obtain ⟨rfl, hlast⟩ := List.append_inj' hturns rfl
      obtain rfl := List.singleton_inj.mp hlast
      exact ⟨h, disk, state, rfl⟩
    · rw [← List.cons_append, ← List.append_assoc] at hturns
      exact ih (List.append_inj' hturns rfl).1

/-- A session keeps track of its entries and its rounds.  After a target was generated in watch mode
it watches, and if the number of targets was always the same, the rounds count the calls. -/
theorem tracks (h : Building compiler entries turns session) :
    ∃ rounds, session.Tracks entries rounds ∧
      (∀ turn ∈ turns, turn.generated.mode = .watch → rounds.mode = .watch) ∧
      ∀ targets, (∀ turn ∈ turns, turn.targets = targets) →
        rounds.begin targets = .after targets turns.length := by
  induction h with
  | start hstart =>
    exact ⟨.start, .start hstart, fun _ hturn => absurd hturn List.not_mem_nil,
      fun targets _ => Rounds.begin_start targets⟩
  | transform _ disk id text state ih =>
    obtain ⟨rounds, htracks, hrest⟩ := ih
    exact ⟨rounds, htracks.transform compiler disk id text state, hrest⟩
  | resolveImport _ edge ih =>
    obtain ⟨rounds, htracks, hrest⟩ := ih
    exact ⟨rounds, htracks.resolveImport edge, hrest⟩
  | generate _ disk given state ih =>
    obtain ⟨rounds, htracks, hwatch, hcount⟩ := ih
    obtain ⟨-, hmode, -⟩ := turn_spec htracks compiler disk given state
    refine ⟨_, htracks.generate compiler disk given state, ?_, ?_⟩
    · intro turn hturn hturnMode
      rcases List.mem_append.mp hturn with hearlier | hlast
      · exact rounds.mode_begin given (hwatch turn hearlier hturnMode)
      · rw [List.mem_singleton.mp hlast] at hturnMode
        exact hmode.symm.trans hturnMode
    · intro targets hsame
      have hgiven : given = targets :=
        hsame _ (List.mem_append_right _ (List.mem_singleton_self _))
      rw [hgiven, hcount targets fun turn hturn => hsame turn (List.mem_append_left _ hturn),
        List.length_append, List.length_singleton]
      exact Rounds.begin_finish targets _

end Building

/-- In a run of a session the place of a round is always smaller than the number of targets, and the
mode never leaves watching.  If the host gives the same number of targets in all calls, 0 counting
as 1, then the call that follows so many others has their number modulo the number of targets as its
round, and watches exactly if as many calls as there are targets came before.  Meanwhile the
compiler is asked to check, once in each pass, every module that is connected to an entry and has a
text, if the session watches and the number of targets divides the number of the calls before;
otherwise it is asked nothing. -/
theorem import_tree_is_rechecked {front rest : List Turn} {turn : Turn}
    (h : Building compiler entries (front ++ turn :: rest) session) :
    turn.generated.round < max turn.targets 1 ∧
      (∀ earlier ∈ front, earlier.generated.mode = .watch → turn.generated.mode = .watch) ∧
      ∀ targets, (∀ earlier ∈ front, earlier.targets = targets) → turn.targets = targets →
        turn.generated.round = front.length % max targets 1 ∧
        (turn.generated.mode = .watch ↔ max targets 1 ≤ front.length) ∧
        turn.asked.Nodup ∧
        ∀ question, question ∈ turn.asked ↔
          (max targets 1 ≤ front.length ∧ max targets 1 ∣ front.length) ∧
            ∃ pass snapshot, turn.before.InTree entries snapshot ∧
              question = .check pass snapshot := by
  obtain ⟨hbefore, disk, state, hturn⟩ := h.upTo rfl
  obtain ⟨rounds, htracks, hwatch, hcount⟩ := hbefore.tracks
  obtain ⟨hround, hmode, hasked⟩ := turn_spec htracks compiler disk turn.targets state
  rw [← hturn] at hround hmode hasked
  refine ⟨?_, ?_, ?_⟩
  · rw [hround]
    exact rounds.round_begin_lt turn.targets
  · intro earlier hearlier hearlierMode
    rw [hmode]
    exact rounds.mode_begin turn.targets (hwatch earlier hearlier hearlierMode)
  intro targets hsame htargets
  rw [htargets, hcount targets hsame] at hround hmode hasked
  refine ⟨hround, ?_, ?_, ?_⟩
  · rw [hmode]
    unfold Rounds.after
    simp only
    split_ifs with hle
    · exact iff_of_true rfl hle
    · exact iff_of_false (by decide) hle
  · rw [hasked]
    split_ifs
    · exact nodup_questions htracks.nodup_tree
    · exact List.nodup_nil
  · intro question
    rw [hasked, ← Rounds.rechecks_after]
    split_ifs with hrechecks
    · rw [mem_questions]
      simp only [hrechecks, true_and, htracks.mem_tree]
    · exact iff_of_false List.not_mem_nil fun hdue => hrechecks hdue.1

/-- A compiler that never finds anything. -/
def content : Compiler Unit where
  version := "1"
  emit _ state := (⟨false, [⟨"a.js", "", false⟩]⟩, state)
  check _ _ state := ([], state)
  checkOptions state := ([], state)

/-- What is left after a target was generated. -/
def built (opened : After Unit Unit) : After Unit Generated :=
  opened.session.generate content opened.disk 1 ()

/-- What is left after a module was handed in then. -/
def handed (opened : After Unit Unit) : After Unit (Except SessionError (Option Emitted)) :=
  (built opened).session.transform content (built opened).disk ⟨"a.ts"⟩ "" ()

/-- With one target the second call watches, and an entry that was handed in is checked again. -/
theorem import_tree_is_rechecked_alone :
    ∃ opened, start content { check := false } [⟨"a.ts"⟩] .empty () = .ok opened ∧
      let first := opened.session.turn content opened.disk 1 ()
      let second := (handed opened).session.turn content (handed opened).disk 1 ()
      Building content [⟨"a.ts"⟩] ([first] ++ [second])
          ((handed opened).session.generate content (handed opened).disk 1 ()).session ∧
        second.generated.mode = .watch ∧
        ∀ pass, .check pass ⟨⟨"a.ts"⟩, "", 1⟩ ∈ second.asked := by
  obtain ⟨opened, hstart, htree⟩ : ∃ opened,
      start content { check := false } [⟨"a.ts"⟩] .empty () = .ok opened ∧
        (handed opened).session.tree = [⟨⟨"a.ts"⟩, "", 1⟩] :=
    exists_start_of_any (by decide +kernel)
  have hstarted : Building content [⟨"a.ts"⟩] [] opened.session := .start hstart
  have hhanded : Building content [⟨"a.ts"⟩] [opened.session.turn content opened.disk 1 ()]
      (handed opened).session :=
    (hstarted.generate opened.disk 1 ()).transform (built opened).disk ⟨"a.ts"⟩ "" ()
  have hbuilding := hhanded.generate (handed opened).disk 1 ()
  obtain ⟨rounds, htracks, -⟩ := hhanded.tracks
  have hin : (handed opened).session.InTree [⟨"a.ts"⟩] ⟨⟨"a.ts"⟩, "", 1⟩ := by
    rw [← htracks.mem_tree, htree]
    exact List.mem_singleton_self _
  obtain ⟨-, hmode, -, hasked⟩ :=
    (import_tree_is_rechecked hbuilding).2.2 1 (by simp [turn]) rfl
  have hdue : max 1 1 ≤ 1 ∧ max 1 1 ∣ 1 := by decide
  exact ⟨opened, hstart, hbuilding, hmode.mpr hdue.1,
    fun pass => (hasked _).mpr ⟨hdue, pass, _, hin, rfl⟩⟩

end Session

end Recompile
