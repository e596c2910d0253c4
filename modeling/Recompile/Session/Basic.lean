import Recompile.Cache.Flush
import Recompile.Cache.Lookup
import Recompile.Diagnostic.Log
import Recompile.Options.Fingerprint
import Recompile.Session.Compiler
import Recompile.Session.Error
import Recompile.Session.Rounds

/-!
# Build sessions

A session is one process that builds, and perhaps goes on watching.  The host hands modules in one
by one (`Session.transform`), says which imports it resolved (`Session.resolveImport`), and has
targets generated (`Session.generate`).  The session asks the compiler only for what the cache does
not know, and reports the findings that are serious enough.
-/

namespace Recompile

/-- The least severity that is reported. -/
def Verbosity.threshold : Verbosity → Severity
  | error => .error
  | warning => .warning
  | info => .message
  | debug => .message

/-- A build session. -/
structure Session where
  /-- The options. -/
  options : Options
  /-- What is known of earlier results. -/
  cache : Cache
  /-- Which modules are handled. -/
  selection : Selection
  /-- How far the targets have been generated. -/
  rounds : Rounds
  /-- What was reported. -/
  log : DiagnosticLog
  /-- The declarations so far, by their paths. -/
  declarations : Std.ExtTreeMap String Declaration
  /-- Whether an emission failed or a check found anything. -/
  hadErrors : Bool

/-- What a call of a session leaves: its result, the session, the disk, and the state of the
compiler. -/
structure Session.After (σ α : Type) where
  /-- The result. -/
  result : α
  /-- The session. -/
  session : Session
  /-- The disk. -/
  disk : Disk
  /-- The state of the compiler. -/
  state : σ

namespace Session

/-- Reports diagnostics, as far as they are serious enough. -/
def report (session : Session) (diagnostics : List Diagnostic) : Session :=
  let threshold := session.options.verbosity.threshold
  let serious := diagnostics.filter fun d => threshold.rank ≤ d.severity.rank
  { session with log := session.log.report serious }

/-! ### Starting -/

/-- The session before the options of the compiler are checked. -/
def opened (options : Options) (selection : Selection) (version : String)
    (entries : List ModuleId) (disk : Disk) : Session × Disk :=
  let config := options.fingerprint version entries
  let (cache, disk) := Cache.openAt disk options.cacheRoot config version entries
  let (cache, disk) := if options.clean then cache.clean disk else (cache, disk)
  ({ options, cache, selection, rounds := .start, log := .empty, declarations := ∅,
      hadErrors := false }, disk)

/-- Starts a session. -/
def start {σ : Type} (compiler : Compiler σ) (options : Options) (entries : List ModuleId)
    (disk : Disk) (state : σ) : Except SessionError (After σ Unit) :=
  match Selection.ofOptions options with
  | .error error => .error (.pattern error)
  | .ok selection =>
    let (session, disk) := opened options selection compiler.version entries disk
    if options.check then
      let (diagnostics, state) := compiler.checkOptions state
      .ok { result := (), session := session.report diagnostics, disk, state }
    else .ok { result := (), session, disk, state }

/-! ### Modules -/

/-- Records an import, if the session handles the imported module. -/
def resolveImport (session : Session) (edge : Edge) : Session :=
  if session.selection.accepts edge.imported then
    { session with cache := session.cache.addImport edge }
  else session

/-- A part of the record of a module, from the cache or from the compiler. -/
def ask {σ : Type} (compiler : Compiler σ) (session : Session) (disk : Disk) (snapshot : Snapshot)
    (part : Part) (state : σ) : part.Value × Session × σ :=
  let (value, cache, state) :=
    session.cache.answer disk part snapshot (compiler.compute snapshot part) state
  (value, { session with cache }, state)

/-- The diagnostics of both passes. -/
def findings {σ : Type} (compiler : Compiler σ) (session : Session) (disk : Disk)
    (snapshot : Snapshot) (state : σ) : List Diagnostic × Session × σ :=
  let (form, session, state) := session.ask compiler disk snapshot (.findings .form) state
  let (meaning, session, state) := session.ask compiler disk snapshot (.findings .meaning) state
  (List.append form meaning, session, state)

/-- What the host gets for a module. -/
structure Emitted where
  /-- The code, unless the emission failed. -/
  code : Option String
  /-- The source map. -/
  map : SourceMap
deriving DecidableEq

/-- What the host gets of an output. -/
def Emitted.ofOutput (output : Output) : Emitted :=
  ⟨output.code, output.map.getD .empty⟩

/-- Takes the declaration of an output, if there is one, in place of an earlier one of its path. -/
def collect (session : Session) (output : Output) : Session :=
  match output.declaration with
  | some declaration =>
    { session with declarations := session.declarations.insert declaration.path declaration }
  | none => session

/-- Checks a module after it was compiled.  If that failed, its diagnostics are reported whatever
the options say, and results are stored at once, since the build may end here. -/
def review {σ : Type} (compiler : Compiler σ) (session : Session) (disk : Disk)
    (snapshot : Snapshot) (output : Output) (state : σ) : Session × Disk × σ :=
  if output.failed then
    let (diagnostics, session, state) := session.findings compiler disk snapshot state
    let session := { session with hadErrors := true }.report diagnostics
    let (_, cache, disk) := session.cache.done disk
    ({ session with cache }, disk, state)
  else if session.options.check then
    let (diagnostics, session, state) := session.findings compiler disk snapshot state
    let hadErrors := session.hadErrors || !diagnostics.isEmpty
    ({ session with hadErrors }.report diagnostics, disk, state)
  else (session, disk, state)

/-- Compiles a module, unless the session does not handle it. -/
def transform {σ : Type} (compiler : Compiler σ) (session : Session) (disk : Disk) (id : ModuleId)
    (text : String) (state : σ) : After σ (Except SessionError (Option Emitted)) :=
  if session.selection.accepts id then
    let (snapshot, cache) := session.cache.submit id text
    let (output, session, state) :=
      { session with cache }.ask compiler disk snapshot .output state
    let output : Output := output
    let (session, disk, state) := session.review compiler disk snapshot output state
    if output.failed && session.options.abortOnError then
      { result := .error (.emission id), session, disk, state }
    else { result := .ok (some (.ofOutput output)), session := session.collect output, disk, state }
  else { result := .ok none, session, disk, state }

/-! ### Targets -/

/-- What generating a target came to. -/
structure Generated where
  /-- The place of the target. -/
  round : Nat
  /-- The number of targets. -/
  targets : Nat
  /-- The mode. -/
  mode : BuildMode
  /-- How many modules were checked again. -/
  rechecked : Nat
  /-- What storing the results came to. -/
  flush : FlushOutcome
deriving DecidableEq

/-- Checks modules in both passes, without the cache. -/
def recheck {σ : Type} (compiler : Compiler σ) :
    List Snapshot → σ → List Diagnostic × σ
  | [], state => ([], state)
  | snapshot :: rest, state =>
    let (form, state) := compiler.check .form snapshot state
    let (meaning, state) := compiler.check .meaning snapshot state
    let (others, state) := recheck compiler rest state
    (form ++ meaning ++ others, state)

/-- The current texts of the modules in the import tree. -/
def tree (session : Session) : List Snapshot :=
  session.cache.walk.filterMap session.cache.snapshots.get?

/-- Generates a target.  In the first round of a pass in watch mode the import tree is checked
again, because modules may be affected by a change although the host does not hand them in. -/
def generate {σ : Type} (compiler : Compiler σ) (session : Session) (disk : Disk) (targets : Nat)
    (state : σ) : After σ Generated :=
  let rounds := session.rounds.begin targets
  let affected := if rounds.rechecks then session.tree else []
  let (diagnostics, state) := recheck compiler affected state
  let session := session.report diagnostics
  let (flush, cache, disk) := session.cache.done disk
  { result :=
      { round := rounds.round, targets := rounds.targets, mode := rounds.mode,
        rechecked := affected.length, flush }
    session := { session with cache, rounds := rounds.finish }
    disk, state }

end Session

end Recompile
