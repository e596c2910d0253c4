import Recompile.Disk.Basic
import Recompile.Snapshot.Basic

/-!
# Tables of snapshots

A table holds the current snapshot of each module that is known.  Texts come from the host or from
the disk; a text that equals the current one changes nothing, and any other text gets the next
version, also when the module has had it before.
-/

namespace Recompile

/-- The current snapshots. -/
structure SnapshotTable where
  /-- The snapshot of each known module. -/
  current : Std.ExtTreeMap ModuleId Snapshot
deriving DecidableEq

namespace SnapshotTable

/-- No module is known. -/
def empty : SnapshotTable := ⟨∅⟩

instance : Inhabited SnapshotTable := ⟨empty⟩

/-- The current snapshot of a module. -/
def get? (table : SnapshotTable) (id : ModuleId) : Option Snapshot :=
  table.current[id]?

/-- The known modules, in order. -/
def ids (table : SnapshotTable) : List ModuleId :=
  table.current.keys

/-- The current snapshots, in the order of their modules. -/
def snapshots (table : SnapshotTable) : List Snapshot :=
  table.current.toList.map (·.2)

/-- The number of known modules. -/
def size (table : SnapshotTable) : Nat :=
  table.current.size

/-- What handing in a text yields: the snapshot that is then current, and how it came about. -/
structure Update where
  /-- The current snapshot. -/
  snapshot : Snapshot
  /-- What happened. -/
  change : SnapshotChange
deriving DecidableEq

/-- Whether the text of the module is another one than before. -/
def Update.isChanged (update : Update) : Bool :=
  update.change ≠ .unchanged

/-- Hands in the text of a module. -/
def submit (table : SnapshotTable) (id : ModuleId) (text : String) : Update × SnapshotTable :=
  match table.get? id with
  | none =>
    let snapshot : Snapshot := { id, text, version := 1 }
    (⟨snapshot, .created⟩, ⟨table.current.insert id snapshot⟩)
  | some known =>
    if known.text = text then (⟨known, .unchanged⟩, table)
    else
      let snapshot : Snapshot := { id, text, version := known.version + 1 }
      (⟨snapshot, .replaced known.fingerprint⟩, ⟨table.current.insert id snapshot⟩)

/-- The snapshot that handing in a text gives is the current one, and has that text. -/
theorem get?_submit (table : SnapshotTable) (id : ModuleId) (text : String) :
    (table.submit id text).2.get? id = some (table.submit id text).1.snapshot
      ∧ (table.submit id text).1.snapshot.text = text := by
  cases known : table.current[id]? with
  | none => simp [submit, get?, known]
  | some old =>
    by_cases same : old.text = text
    · simp [submit, get?, known, same]
    · simp [submit, get?, known, same]

/-- Handing in the text of a module leaves the other modules alone. -/
theorem get?_submit_of_ne (table : SnapshotTable) {id other : ModuleId} (ne : other ≠ id)
    (text : String) : (table.submit id text).2.get? other = table.get? other := by
  have apart : id ≠ other := Ne.symm ne
  cases known : table.current[id]? with
  | none => simp [submit, get?, known, Std.ExtTreeMap.getElem?_insert, apart]
  | some old =>
    by_cases same : old.text = text
    · simp [submit, get?, known, same]
    · simp [submit, get?, known, same, Std.ExtTreeMap.getElem?_insert, apart]

/-- Hands in the text that a file has now. -/
def submitFile (table : SnapshotTable) (disk : Disk) (path : Path) :
    Except Disk.Fault (Update × SnapshotTable) :=
  match disk.readText path with
  | .error fault => .error fault
  | .ok text => .ok (table.submit (ModuleId.ofPath path.text) text)

end SnapshotTable

end Recompile
