import Recompile.Cache.Flush
import Recompile.Cache.Lookup
import Recompile.Proofs.Cache.Records
import Recompile.Proofs.Manifest.Document

/-!
# Histories of a cache root

A world is a cache, the disk it works on, and the log of its answers so far.  Calls lead from one
world to the next (`World.take`): a process opens the root, hands in texts and imports, asks for
parts, stores, collects, cleans and changes the configuration; and others change the disk.  What
others do below the root is limited (`Disk.Spares`): they may take files away or make them
unreadable, but what can be read there was written by a cache.

`World.Reachable` are the worlds that any number of calls in any order lead to, over any number of
processes, from an empty cache root.
-/

namespace Recompile

/-- One question to a cache, with its answer. -/
structure Answer where
  /-- What was asked for. -/
  part : Part
  /-- The module. -/
  file : ModuleId
  /-- The digest of its text. -/
  content : Digest
  /-- The configuration. -/
  config : Digest
  /-- The version of the compiler. -/
  tool : String
  /-- The generation of the module. -/
  generation : UInt64
  /-- The answer. -/
  value : part.Value
deriving DecidableEq

/-- One answer in a log. -/
structure Served where
  /-- The answer. -/
  answer : Answer
  /-- Whether it was computed; if not, the cache knew it. -/
  computed : Bool
deriving DecidableEq

/-- A cache, its disk, and what happened so far. -/
structure World where
  /-- The cache. -/
  cache : Cache
  /-- The disk. -/
  disk : Disk
  /-- The answers so far, the first one first. -/
  log : List Served
  /-- A bound for the number of texts that were compared with recorded ones so far. -/
  texts : Nat

/-- What can happen in a world. -/
inductive Call where
  /-- A new process opens the root. -/
  | reopen (config : Digest) (tool : String) (entries : List ModuleId)
  /-- The text of a file is handed in. -/
  | submit (path text : String)
  /-- An import is recorded. -/
  | addImport (edge : Edge)
  /-- A part is asked for; computing it would give the value. -/
  | ask (part : Part) (snapshot : Snapshot) (value : part.Value)
  /-- Results are stored. -/
  | done
  /-- Artifacts of no use are removed. -/
  | collect
  /-- Everything is thrown away. -/
  | clean
  /-- The configuration changes. -/
  | reconfigure (config : Digest)
  /-- Others change the disk. -/
  | edit (disk : Disk)

/-! ### What others do -/

/-- Nobody makes anything of a content: it is no artifact and no manifest. -/
structure Bytes.Meaningless (content : Bytes) : Prop where
  /-- It is no artifact of any tool. -/
  artifact : ∀ tool payload, Artifact.payload tool content ≠ .ok payload
  /-- It is no manifest. -/
  manifest : Manifest.ofContent? content = none

/-- What a disk has below a location after others changed it was there before or is
meaningless. -/
def Disk.Spares (root : Location) (before after : Disk) : Prop :=
  ∀ (below : Location) (content : Bytes), after.content? (root ++ below) = some content →
    before.content? (root ++ below) = some content ∨ content.Meaningless

/-- There is no file below a location. -/
def Disk.IsBare (disk : Disk) (root : Location) : Prop :=
  ∀ below : Location, disk.content? (root ++ below) = none

/-- A directory that is put somewhere is no file. -/
lemma Disk.IsBare.insert_directory {disk : Disk} {root : Location} (h : disk.IsBare root)
    (location : Location) : (disk.insert location .directory).IsBare root := by
  intro below
  have hbare := h below
  unfold Disk.content? Disk.node? at hbare ⊢
  unfold Disk.insert
  simp only [Std.ExtTreeMap.getElem?_insert]
  split_ifs at hbare ⊢
  · rfl
  · rfl
  · exact hbare

/-! ### Calls -/

namespace World

/-- The world with another cache and another disk. -/
def put (world : World) (result : Cache × Disk) : World :=
  { world with cache := result.1, disk := result.2 }

/-- The world of a process that opens a root for the first time. -/
def start (disk : Disk) (root : Path) (config : Digest) (tool : String)
    (entries : List ModuleId) : World where
  cache := (Cache.openAt disk root config tool entries).1
  disk := (Cache.openAt disk root config tool entries).2
  log := []
  texts := 0

/-- What asking for a part gives: the value, the cache, and whether the value was computed. -/
def given (world : World) (part : Part) (snapshot : Snapshot) (value : part.Value) :
    part.Value × Cache × Bool :=
  world.cache.answer world.disk part snapshot (fun _ => (value, true)) false

/-- The question with an answer that a cache gave. -/
def answerOf (cache : Cache) (part : Part) (snapshot : Snapshot)
    (value : part.Value) : Answer :=
  { part, file := snapshot.id, content := snapshot.fingerprint, config := cache.config,
    tool := cache.tool, generation := cache.generation snapshot.id, value }

/-- The world after a part was asked for. -/
def ask (world : World) (part : Part) (snapshot : Snapshot) (value : part.Value) : World :=
  let given := world.given part snapshot value
  { world with
    cache := given.2.1
    log := world.log ++ [⟨answerOf given.2.1 part snapshot given.1, given.2.2⟩]
    texts := world.texts + (world.cache.graph.reachable [snapshot.id]).length }

/-- The world after a call. -/
def take (world : World) : Call → World
  | .reopen config tool entries =>
    world.put (Cache.openAt world.disk world.cache.root config tool entries)
  | .submit path text =>
    { world with
      cache := (world.cache.submit (ModuleId.ofPath path) text).2, texts := world.texts + 1 }
  | .addImport edge => { world with cache := world.cache.addImport edge }
  | .ask part snapshot value => world.ask part snapshot value
  | .done => world.put (world.cache.done world.disk).2
  | .collect => { world with disk := (world.cache.collect world.disk).2 }
  | .clean => world.put (world.cache.clean world.disk)
  | .reconfigure config =>
    { world.put (world.cache.reconfigure world.disk config).2 with
      texts := world.texts + world.cache.snapshots.snapshots.length }
  | .edit disk => { world with disk }

/-- Whether a call may happen: others spare the root, and everything else may always happen. -/
def Allows (world : World) : Call → Prop
  | .edit disk => world.disk.Spares world.cache.root.place disk
  | _ => True

/-- The worlds that calls lead to from an empty root. -/
inductive Reachable (root : Path) : World → Prop where
  /-- A process opens the empty root. -/
  | start {disk : Disk} (hbare : disk.IsBare root.place) (config : Digest) (tool : String)
    (entries : List ModuleId) : Reachable root (start disk root config tool entries)
  /-- Something happens. -/
  | take {world : World} (h : Reachable root world) {call : Call} (hcall : world.Allows call) :
    Reachable root (world.take call)

/-- The world after several calls. -/
def run (world : World) (calls : List Call) : World :=
  calls.foldl take world

/-- Whether several calls may happen one after the other. -/
def AllowsAll : World → List Call → Prop
  | _, [] => True
  | world, call :: rest => world.Allows call ∧ (world.take call).AllowsAll rest

/-- Several calls may be followed by one that may then happen. -/
lemma AllowsAll.concat {world : World} {calls : List Call} (h : world.AllowsAll calls)
    {call : Call} (hcall : (world.run calls).Allows call) : world.AllowsAll (calls ++ [call]) := by
  induction calls generalizing world with
  | nil => exact ⟨hcall, trivial⟩
  | cons first rest ih => exact ⟨h.1, ih h.2 hcall⟩

/-- No calls change nothing. -/
@[simp] lemma run_nil (world : World) : world.run [] = world := rfl

/-- The cache after a part was asked for looked it up, and may have kept it. -/
lemma cache_ask_induction {motive : Cache → Prop} {world : World} {part : Part}
    {snapshot : Snapshot} {value : part.Value}
    (hlookup : motive (world.cache.lookup world.disk part snapshot).2)
    (hkeep : motive (world.cache.lookup world.disk part snapshot).2 →
      motive ((world.cache.lookup world.disk part snapshot).2.keep part snapshot value)) :
    motive (world.ask part snapshot value).cache := by
  unfold World.ask given
  rcases world.cache.answer_cases world.disk part snapshot (fun _ => (value, true)) false with
    ⟨found, -, heq⟩ | ⟨-, heq⟩
  · rw [heq]
    exact hlookup
  · rw [heq]
    exact hkeep hlookup

/-- The last of several calls is taken last. -/
lemma run_concat (world : World) (calls : List Call) (call : Call) :
    world.run (calls ++ [call]) = (world.run calls).take call := by
  unfold run
  rw [List.foldl_append]
  rfl

/-- Calls that may happen lead from reachable worlds to reachable ones. -/
lemma Reachable.run {root : Path} {world : World} (h : Reachable root world) {calls : List Call}
    (hcalls : world.AllowsAll calls) : Reachable root (world.run calls) := by
  induction calls generalizing world with
  | nil => exact h
  | cons call rest ih => exact ih (h.take hcalls.1) hcalls.2

/-- A world where a module `b` imports a module `a` with an empty text. -/
@[irreducible]
def importing : World :=
  (start .empty ⟨"cache"⟩ .zero "" []).run [.submit "a" "", .addImport ⟨⟨"b"⟩, ⟨"a"⟩⟩]

/-! ### Records in reachable worlds -/

/-- The records of a world and the artifacts on its disk have a property. -/
def Keeps (world : World) (property : RecordProperty) : Prop :=
  world.cache.Keeps property world.disk

/-- What others do keeps a property of artifacts. -/
lemma archives_spares {property : RecordProperty} {root : Location}
    {before after : Disk} (h : before.Archives property root) (hspares : before.Spares root after) :
    after.Archives property root := by
  intro config directory name tool content payload record hcontent hpayload hrecord
  rcases hspares _ content hcontent with hold | hmeaningless
  · exact h config directory name tool content payload record hold hpayload hrecord
  · exact absurd hpayload (hmeaningless.artifact tool payload)

/-- The empty disk is bare everywhere. -/
lemma isBare_empty (root : Location) : Disk.empty.IsBare root := by
  intro below
  unfold Disk.content? Disk.node? Disk.empty
  split_ifs
  · rfl
  · rw [Std.ExtTreeMap.getElem?_empty]

/-- The world with an import is reachable. -/
lemma reachable_importing : Reachable ⟨"cache"⟩ importing := by
  unfold importing
  exact (Reachable.start (isBare_empty _) .zero "" []).run ⟨trivial, trivial, trivial⟩

/-- A bare disk has no artifacts. -/
lemma archives_of_isBare {property : RecordProperty} {disk : Disk} {root : Location}
    (h : disk.IsBare root) : disk.Archives property root := by
  intro config directory name tool content payload record hcontent
  rw [h] at hcontent
  cases hcontent

/-- The property of a world is one of its cache and its disk. -/
lemma keeps_mk {property : RecordProperty} {cache : Cache} {disk : Disk} {log : List Served}
    {texts : Nat} (h : cache.Keeps property disk) :
    (World.mk cache disk log texts).Keeps property :=
  h

/-- Opening a bare root keeps every property. -/
lemma keeps_start {property : RecordProperty} {disk : Disk} {root : Path}
    (h : disk.IsBare root.place) (config : Digest) (tool : String) (entries : List ModuleId) :
    (start disk root config tool entries).Keeps property :=
  keeps_mk (Cache.Keeps.openAt root (archives_of_isBare h) config tool entries)

/-- Every call keeps a property, if asking for a part does. -/
theorem Keeps.take {property : RecordProperty} {world : World} (h : world.Keeps property)
    {call : Call} (hcall : world.Allows call)
    (hask : ∀ part snapshot value, call = .ask part snapshot value →
      (world.ask part snapshot value).Keeps property) : (world.take call).Keeps property := by
  cases call with
  | reopen config tool entries =>
    exact keeps_mk (Cache.Keeps.openAt _ h.archives config tool entries)
  | submit path text =>
    exact keeps_mk (Cache.Keeps.hears h (world.cache.hears_submit (ModuleId.ofPath path) text))
  | addImport edge => exact keeps_mk (Cache.Keeps.addImport h edge)
  | ask part snapshot value => exact hask part snapshot value rfl
  | done => exact keeps_mk (Cache.Keeps.done h)
  | collect => exact keeps_mk (Cache.Keeps.within h (world.cache.collect_within world.disk))
  | clean => exact keeps_mk (Cache.Keeps.clean h)
  | reconfigure config => exact keeps_mk (Cache.Keeps.reconfigure h config)
  | edit disk => exact keeps_mk ⟨h.memory, archives_spares h.archives hcall⟩

end World

end Recompile
