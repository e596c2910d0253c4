import Std.Data.ExtTreeMap
import Std.Data.ExtTreeSet
import Recompile.Record.Basic

/-!
# Slots and parts

A slot is where the cache keeps one record: a shelf and a module.  What can be asked for is a part
of a record: the output, or the diagnostics of one pass.  Reading a part after setting it gives what
was set, and setting one part leaves the others alone (`Part.get?_set`, `Part.get?_set_of_ne`).
-/

namespace Recompile

/-- The place of one record. -/
structure Slot where
  /-- The shelf. -/
  shelf : Shelf
  /-- The module. -/
  file : ModuleId
deriving DecidableEq, Inhabited

namespace Slot

/-- Slots are ordered by the shelf, then by the module. -/
instance : Ord Slot := ⟨compareLex (compareOn shelf) (compareOn file)⟩

instance : Std.OrientedOrd Slot :=
  inferInstanceAs (Std.OrientedCmp (compareLex (compareOn shelf) (compareOn file)))

instance : Std.TransOrd Slot :=
  inferInstanceAs (Std.TransCmp (compareLex (compareOn shelf) (compareOn file)))

instance : Std.LawfulEqOrd Slot where
  eq_of_compare {a b} h := by
    have h : (compare a.shelf b.shelf).then (compare a.file b.file) = .eq := h
    rw [Ordering.then_eq_eq] at h
    have shelves := Std.LawfulEqOrd.eq_of_compare h.1
    have files := Std.LawfulEqOrd.eq_of_compare h.2
    cases a; cases b; simp_all

end Slot

/-- What can be asked for about a module. -/
inductive Part where
  /-- What compiling it yields. -/
  | output
  /-- The diagnostics of a pass. -/
  | findings (pass : Pass)
deriving DecidableEq, Inhabited

namespace Part

/-- The values of a part. -/
def Value : Part → Type
  | output => Output
  | findings _ => List Diagnostic

instance (part : Part) : DecidableEq part.Value :=
  match part with
  | output => inferInstanceAs (DecidableEq Output)
  | findings _ => inferInstanceAs (DecidableEq (List Diagnostic))

instance (part : Part) : Inhabited part.Value :=
  match part with
  | output => inferInstanceAs (Inhabited Output)
  | findings _ => inferInstanceAs (Inhabited (List Diagnostic))

/-- The shelf on which records with the part are kept. -/
def shelf : Part → Shelf
  | output => .code
  | findings _ => .diagnostics

/-- The slot of the record that has the part for a module. -/
def slot (part : Part) (file : ModuleId) : Slot := ⟨part.shelf, file⟩

/-- The part of a record, if it has it. -/
def get? : (part : Part) → Record → Option part.Value
  | output, record => record.output
  | findings pass, record => record.findings.bind fun known => known.get? pass

/-- The record with a part replaced. -/
def set : (part : Part) → part.Value → Record → Record
  | output, value, record => { record with output := some value }
  | findings pass, value, record =>
    { record with findings := some ((record.findings.getD .none).set pass value) }

/-- A part that was set is there. -/
@[simp] theorem get?_set (part : Part) (value : part.Value) (record : Record) :
    part.get? (part.set value record) = some value := by
  cases part with
  | output => rfl
  | findings pass => exact (Findings.get?_set _ pass pass value).trans (if_pos rfl)

/-- Setting a part leaves the other parts alone. -/
theorem get?_set_of_ne {part other : Part} (h : other ≠ part) (value : part.Value)
    (record : Record) : other.get? (part.set value record) = other.get? record := by
  cases part with
  | output => cases other with
    | output => exact absurd rfl h
    | findings pass => rfl
  | findings pass => cases other with
    | output => rfl
    | findings pass' =>
      have ne : pass' ≠ pass := fun same => h (same ▸ rfl)
      refine (Findings.get?_set _ pass pass' value).trans ((if_neg ne).trans ?_)
      cases known : record.findings with
      | none => cases pass' <;> simp only [get?, known] <;> rfl
      | some found => simp only [get?, known]; rfl

end Part

namespace Record

/-- The record that has nothing yet. -/
def blank (file : ModuleId) (content : Digest) (generation : UInt64) : Record :=
  { file, content, generation, output := none, findings := none }

/-- What a record has for a shelf, without what belongs to the other. -/
def onShelf? (record : Record) : Shelf → Option Record
  | .code => if record.output.isSome then some { record with findings := none } else none
  | .diagnostics => if record.findings.isSome then some { record with output := none } else none

/-- The name of the artifact that holds the record. -/
def key (record : Record) (config : Digest) : String :=
  artifactKey record.file record.content config record.generation

/-- Whether the record answers questions about this module, text and generation. -/
def answers (record : Record) (file : ModuleId) (content : Digest) (generation : UInt64) : Bool :=
  (record.mismatch? file content generation).isNone

end Record

end Recompile
