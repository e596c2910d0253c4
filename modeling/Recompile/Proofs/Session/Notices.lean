import Recompile.Proofs.Session.Transparent

/-!
# What marks a session

In each of its calls a session may find something out and hand diagnostics over for reporting: on the
options when it starts, on a module that is handed in, on the import tree when it is checked again
(`Session.Notice`).  Whatever is serious enough goes to the log, wherever it comes from
(`Session.Gains`).

The mark that a session keeps is another matter.  It is set by emissions that failed and by modules
with any findings at all, and by nothing else (`Session.hadErrors_iff`).  So it is no summary of what
was reported: an error in the options leaves it unset (`Session.option_error_unmarked`), and a mere
proposal about a module sets it.
-/

namespace Recompile.Session

/-! ### Notices -/

/-- What a call of a session finds out, with the diagnostics that it hands over for reporting. -/
inductive Notice where
  /-- The options were checked. -/
  | options (diagnostics : List Diagnostic)
  /-- A module was compiled, which may have failed. -/
  | compiled (failed : Bool) (diagnostics : List Diagnostic)
  /-- The import tree was checked again. -/
  | tree (diagnostics : List Diagnostic)
deriving DecidableEq

namespace Notice

/-- The diagnostics that are handed over. -/
def diagnostics : Notice → List Diagnostic
  | options diagnostics => diagnostics
  | compiled _ diagnostics => diagnostics
  | tree diagnostics => diagnostics

/-- Whether an emission failed. -/
def failed : Notice → Bool
  | compiled failed _ => failed
  | _ => false

/-- Whether the notice sets the mark of the session. -/
def marks : Notice → Bool
  | compiled failed diagnostics => failed || !diagnostics.isEmpty
  | _ => false

/-- An emission failed, or something was handed over that should at least be looked at. -/
def Grave (notice : Notice) : Prop :=
  notice.failed = true ∨
    ∃ diagnostic ∈ notice.diagnostics, diagnostic.severity = .warning ∨ diagnostic.severity = .error

instance (notice : Notice) : Decidable notice.Grave :=
  inferInstanceAs (Decidable (_ ∨ _))

end Notice

/-- What the session would put in its log of all that was handed over. -/
def serious (session : Session) (notices : List Notice) : List Diagnostic :=
  (notices.flatMap Notice.diagnostics).filter fun diagnostic =>
    session.options.verbosity.threshold.rank ≤ diagnostic.severity.rank

variable {σ : Type}

/-- What starting a session finds out. -/
def optionNotices (compiler : Compiler σ) (options : Options) (state : σ) : List Notice :=
  if options.check then [.options (compiler.checkOptions state).1] else []

/-- What checking a module after it was compiled finds out.  Its diagnostics are asked for only if it
could not be emitted or is to be checked. -/
def reviewNotice (compiler : Compiler σ) (session : Session) (disk : Disk) (snapshot : Snapshot)
    (output : Output) (state : σ) : Notice :=
  if output.failed || session.options.check then
    .compiled output.failed (session.findings compiler disk snapshot state).1
  else .compiled false []

/-- What handing in a module finds out, if the session handles it. -/
def moduleNotices (compiler : Compiler σ) (session : Session) (disk : Disk) (id : ModuleId)
    (text : String) (state : σ) : List Notice :=
  if session.selection.accepts id then
    let (snapshot, cache) := session.cache.submit id text
    let (output, session, state) :=
      { session with cache }.ask compiler disk snapshot .output state
    [session.reviewNotice compiler disk snapshot output state]
  else []

/-- What generating a target finds out. -/
def treeNotices (compiler : Compiler σ) (session : Session) (targets : Nat) (state : σ) :
    List Notice :=
  if (session.rounds.begin targets).rechecks then [.tree (recheck compiler session.tree state).1]
  else []

/-- The sessions of a compiler, with all that they found out.  The disk and the state of the compiler
may be anything at each call. -/
inductive Running (compiler : Compiler σ) : List Notice → Session → Prop where
  /-- A session starts. -/
  | start {options : Options} {entries : List ModuleId} {disk : Disk} {state : σ}
    {after : After σ Unit} (hstart : Session.start compiler options entries disk state = .ok after) :
    Running compiler (optionNotices compiler options state) after.session
  /-- A module is handed in. -/
  | transform {notices : List Notice} {session : Session} (h : Running compiler notices session)
    (disk : Disk) (id : ModuleId) (text : String) (state : σ) :
    Running compiler (notices ++ session.moduleNotices compiler disk id text state)
      (session.transform compiler disk id text state).session
  /-- An import is resolved. -/
  | resolveImport {notices : List Notice} {session : Session}
    (h : Running compiler notices session) (edge : Edge) :
    Running compiler notices (session.resolveImport edge)
  /-- A target is generated. -/
  | generate {notices : List Notice} {session : Session} (h : Running compiler notices session)
    (disk : Disk) (targets : Nat) (state : σ) :
    Running compiler (notices ++ session.treeNotices compiler targets state)
      (session.generate compiler disk targets state).session

/-! ### What a call changes -/

/-- The second session is the first one after notices: it has the same options, what is serious
enough is in its log, and it is marked if it was or if a notice marks it. -/
structure Gains (session : Session) (notices : List Notice) (after : Session) : Prop where
  /-- The options stay. -/
  options : after.options = session.options
  /-- The log gains what is serious enough. -/
  log : after.log = session.log.report (session.serious notices)
  /-- The mark is set by some of the notices. -/
  hadErrors : after.hadErrors = (session.hadErrors || notices.any Notice.marks)

namespace Gains

variable {session middle after : Session} {notices later : List Notice}

/-- Where nothing is handed over and nothing failed, log and mark stay. -/
lemma of_silent (hoptions : after.options = session.options) (hlog : after.log = session.log)
    (hmark : after.hadErrors = session.hadErrors)
    (hdiagnostics : notices.flatMap Notice.diagnostics = [])
    (hmarks : notices.any Notice.marks = false) : session.Gains notices after where
  options := hoptions
  log := by
    rw [hlog, serious, hdiagnostics, List.filter_nil, DiagnosticLog.report, List.append_nil]
  hadErrors := by rw [hmark, hmarks, Bool.or_false]

/-- Notices follow one another. -/
lemma trans (h : session.Gains notices middle) (h' : middle.Gains later after) :
    session.Gains (notices ++ later) after where
  options := h'.options.trans h.options
  log := by
    have hserious : session.serious (notices ++ later) =
        session.serious notices ++ middle.serious later := by
      unfold serious
      rw [h.options, List.flatMap_append, List.filter_append]
    rw [h'.log, h.log, hserious, DiagnosticLog.report, DiagnosticLog.report, DiagnosticLog.report,
      List.append_assoc]
  hadErrors := by rw [h'.hadErrors, h.hadErrors, List.any_append, Bool.or_assoc]

end Gains

variable {compiler : Compiler σ} {session : Session} {disk : Disk}

/-- Reporting the diagnostics of one notice. -/
lemma gains_report (session : Session) (notice : Notice) (hadErrors : Bool)
    (hmark : hadErrors = (session.hadErrors || notice.marks)) :
    session.Gains [notice] ({ session with hadErrors }.report notice.diagnostics) where
  options := rfl
  log := by
    unfold report serious
    rw [List.flatMap_singleton]
  hadErrors := by
    rw [List.any_cons, List.any_nil, Bool.or_false]
    exact hmark

/-- Checking a module after it was compiled. -/
lemma gains_review (compiler : Compiler σ) (session : Session) (disk : Disk) (snapshot : Snapshot)
    (output : Output) (state : σ) :
    session.Gains [session.reviewNotice compiler disk snapshot output state]
      (session.review compiler disk snapshot output state).1 := by
  obtain ⟨diagnostics, cache, left, hfindings⟩ : ∃ diagnostics cache left,
      session.findings compiler disk snapshot state = (diagnostics, { session with cache }, left) :=
    ⟨_, _, _, rfl⟩
  unfold review reviewNotice
  rw [hfindings]
  cases hfailed : output.failed with
  | true =>
    have hgains := gains_report session (.compiled true diagnostics) true (Bool.or_true _).symm
    simp only [if_true, Bool.true_or]
    exact ⟨hgains.options, hgains.log, hgains.hadErrors⟩
  | false =>
    cases hcheck : session.options.check with
    | true =>
      have hgains := gains_report session (.compiled false diagnostics) _ rfl
      simp only [Bool.false_eq_true, if_false, if_true, Bool.false_or]
      exact ⟨hgains.options, hgains.log, hgains.hadErrors⟩
    | false =>
      simp only [Bool.false_eq_true, if_false, Bool.false_or]
      exact .of_silent rfl rfl rfl rfl rfl

/-- Handing in a module. -/
theorem gains_transform (compiler : Compiler σ) (session : Session) (disk : Disk) (id : ModuleId)
    (text : String) (state : σ) :
    session.Gains (session.moduleNotices compiler disk id text state)
      (session.transform compiler disk id text state).session := by
  unfold moduleNotices transform
  cases haccepts : session.selection.accepts id with
  | false =>
    simp only [Bool.false_eq_true, if_false]
    exact .of_silent rfl rfl rfl rfl rfl
  | true =>
    rcases session.cache.submit id text with ⟨snapshot, submitted⟩
    obtain ⟨output, asked, middle, hask⟩ : ∃ output asked middle,
        ({ session with cache := submitted } : Session).ask compiler disk snapshot .output state =
          (output, { session with cache := asked }, middle) := ⟨_, _, _, rfl⟩
    have hreview := gains_review compiler { session with cache := asked } disk snapshot output middle
    simp only [if_true, hask]
    rcases hresult : ({ session with cache := asked } : Session).review compiler disk snapshot output
      middle with ⟨reviewed, left, last⟩
    rw [hresult] at hreview
    -- The session that was asked differs from the first one in its cache only.
    have hgains : session.Gains [reviewNotice compiler { session with cache := asked } disk snapshot
        output middle] reviewed := ⟨hreview.options, hreview.log, hreview.hadErrors⟩
    by_cases habort : (Output.failed output && reviewed.options.abortOnError) = true
    · simp only [if_pos habort]
      exact hgains
    · simp only [if_neg habort]
      unfold collect
      split
      · exact ⟨hgains.options, hgains.log, hgains.hadErrors⟩
      · exact hgains

/-- Resolving an import. -/
lemma gains_resolveImport (session : Session) (edge : Edge) :
    session.Gains [] (session.resolveImport edge) := by
  unfold resolveImport
  split_ifs
  · exact .of_silent rfl rfl rfl rfl rfl
  · exact .of_silent rfl rfl rfl rfl rfl

/-- Generating a target. -/
lemma gains_generate (compiler : Compiler σ) (session : Session) (disk : Disk) (targets : Nat)
    (state : σ) :
    session.Gains (session.treeNotices compiler targets state)
      (session.generate compiler disk targets state).session := by
  obtain ⟨cache, hafter⟩ : ∃ cache, (session.generate compiler disk targets state).session =
      { session.report (recheck compiler
            (if (session.rounds.begin targets).rechecks then session.tree else []) state).1 with
        cache, rounds := (session.rounds.begin targets).finish } := ⟨_, rfl⟩
  rw [hafter]
  unfold treeNotices
  cases (session.rounds.begin targets).rechecks with
  | true =>
    have hgains := gains_report session (.tree (recheck compiler session.tree state).1) _
      (Bool.or_false _).symm
    exact ⟨hgains.options, hgains.log, hgains.hadErrors⟩
  | false => exact .of_silent rfl (congrArg (DiagnosticLog.mk _) (List.append_nil _)) rfl rfl rfl

/-! ### Runs -/

/-- A session starts unmarked and with an empty log, and then its options are checked. -/
lemma gains_start {options : Options} {entries : List ModuleId} {state : σ} {after : After σ Unit}
    (hstart : start compiler options entries disk state = .ok after) :
    ∃ first : Session, first.log = .empty ∧ first.hadErrors = false ∧
      first.Gains (optionNotices compiler options state) after.session := by
  unfold start at hstart
  split at hstart
  · cases hstart
  · rename_i selection _
    obtain ⟨first, left, hopened, hoptions, hlog, hmark⟩ : ∃ first left,
        opened options selection compiler.version entries disk = (first, left) ∧
          first.options = options ∧ first.log = .empty ∧ first.hadErrors = false :=
      ⟨_, _, rfl, rfl, rfl, rfl⟩
    refine ⟨first, hlog, hmark, ?_⟩
    rw [hopened] at hstart
    unfold optionNotices
    cases hcheck : options.check with
    | true =>
      simp only [hcheck, if_true] at hstart
      obtain rfl := Except.ok.inj hstart
      exact gains_report first (.options (compiler.checkOptions state).1) _ (Bool.or_false _).symm
    | false =>
      simp only [hcheck, Bool.false_eq_true, if_false] at hstart
      obtain rfl := Except.ok.inj hstart
      exact .of_silent rfl rfl rfl rfl rfl

/-- A session gained all that it found out. -/
theorem Running.gains {notices : List Notice} (h : Running compiler notices session) :
    ∃ first : Session, first.log = .empty ∧ first.hadErrors = false ∧
      first.Gains notices session := by
  induction h with
  | start hstart => exact gains_start hstart
  | transform _ disk id text state ih =>
    obtain ⟨first, hlog, hmark, hgains⟩ := ih
    exact ⟨first, hlog, hmark, hgains.trans (gains_transform compiler _ disk id text state)⟩
  | resolveImport _ edge ih =>
    obtain ⟨first, hlog, hmark, hgains⟩ := ih
    have hresolved := hgains.trans (gains_resolveImport _ edge)
    rw [List.append_nil] at hresolved
    exact ⟨first, hlog, hmark, hresolved⟩
  | generate _ disk targets state ih =>
    obtain ⟨first, hlog, hmark, hgains⟩ := ih
    exact ⟨first, hlog, hmark, hgains.trans (gains_generate compiler _ disk targets state)⟩

/-- A notice marks the session if it is about a module whose emission failed or about which anything
was handed over. -/
lemma marks_iff {notice : Notice} : notice.marks = true ↔
    ∃ failed diagnostics, notice = .compiled failed diagnostics ∧
      (failed = true ∨ diagnostics ≠ []) := by
  cases notice with
  | compiled failed diagnostics => simp [Notice.marks]
  | options diagnostics => simp [Notice.marks]
  | tree diagnostics => simp [Notice.marks]

/-- The log of a session holds what is serious enough of all that was handed over for reporting.  The
session is marked exactly if the emission of some module failed or the check of some module handed
anything over, however serious; what is handed over about the options and about the import tree does
not mark it. -/
theorem hadErrors_iff {notices : List Notice} (h : Running compiler notices session) :
    session.log = DiagnosticLog.empty.report (session.serious notices) ∧
      (session.hadErrors = true ↔ ∃ failed diagnostics, .compiled failed diagnostics ∈ notices ∧
        (failed = true ∨ diagnostics ≠ [])) := by
  obtain ⟨first, hlog, hmark, hgains⟩ := h.gains
  constructor
  · rw [hgains.log, hlog, serious, serious, hgains.options]
  · rw [hgains.hadErrors, hmark, Bool.false_or, List.any_eq_true]
    constructor
    · rintro ⟨notice, hnotice, hmarks⟩
      obtain ⟨failed, diagnostics, rfl, hwhy⟩ := marks_iff.mp hmarks
      exact ⟨failed, diagnostics, hnotice, hwhy⟩
    · rintro ⟨failed, diagnostics, hnotice, hwhy⟩
      exact ⟨_, hnotice, marks_iff.mpr ⟨failed, diagnostics, rfl, hwhy⟩⟩

/-! ### A proposal and an error -/

/-- A proposal about a module. -/
def proposal : Diagnostic :=
  .general .meaning .suggestion 6133 "declared but never read"

/-- A compiler that says something about the options, and has a proposal for every module. -/
def picky (complaints : List Diagnostic) : Compiler Unit where
  version := "1"
  emit _ state := (⟨false, [⟨"a.js", "", false⟩]⟩, state)
  check
    | .form, _, state => ([], state)
    | .meaning, _, state => ([proposal], state)
  checkOptions state := (complaints, state)

/-- A proposal about a module is nothing grave, but it marks the session. -/
theorem hadErrors_iff_proposal :
    ∃ after, start (picky []) {} [] .empty () = .ok after ∧
      let notices := optionNotices (picky []) {} () ++
        after.session.moduleNotices (picky []) after.disk ⟨"a.ts"⟩ "" ()
      let session := (after.session.transform (picky []) after.disk ⟨"a.ts"⟩ "" ()).session
      Running (picky []) notices session ∧ (∀ notice ∈ notices, ¬ notice.Grave) ∧
        session.log = DiagnosticLog.empty.report (session.serious notices) ∧
        session.hadErrors = true := by
  obtain ⟨after, hstart, hnotices⟩ : ∃ after, start (picky []) {} [] .empty () = .ok after ∧
      after.session.moduleNotices (picky []) after.disk ⟨"a.ts"⟩ "" () =
        [.compiled false [proposal]] := exists_start_of_any (by decide +kernel)
  have hrunning := (Running.start hstart).transform after.disk ⟨"a.ts"⟩ "" ()
  obtain ⟨hlog, hmark⟩ := hadErrors_iff hrunning
  refine ⟨after, hstart, hrunning, ?_, hlog, hmark.mpr ⟨false, [proposal], ?_, .inr ?_⟩⟩
  · rw [hnotices]
    decide
  · rw [hnotices]
    exact List.mem_append_right _ (List.mem_singleton_self _)
  · exact List.cons_ne_nil _ _

/-- An error in the options is grave and in the log, but it does not mark the session. -/
theorem option_error_unmarked :
    let complaint : Diagnostic := .general .options .error 5023 "unknown compiler option"
    ∃ after, start (picky [complaint]) {} [] .empty () = .ok after ∧
      Running (picky [complaint]) (optionNotices (picky [complaint]) {} ()) after.session ∧
      after.session.log.hasErrors = true ∧
      ¬ (after.session.hadErrors = true ↔
        ∃ notice ∈ optionNotices (picky [complaint]) {} (), notice.Grave) := by
  intro complaint
  obtain ⟨after, hstart, herrors, hmark⟩ : ∃ after,
      start (picky [complaint]) {} [] .empty () = .ok after ∧
        after.session.log.hasErrors = true ∧ after.session.hadErrors = false :=
    exists_start_of_any (by decide +kernel)
  refine ⟨after, hstart, .start hstart, herrors, fun h => ?_⟩
  have hgrave : ∃ notice ∈ optionNotices (picky [complaint]) {} (), notice.Grave := by decide
  rw [h.mpr hgrave] at hmark
  cases hmark

end Recompile.Session
