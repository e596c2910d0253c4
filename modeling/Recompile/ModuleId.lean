import Std.Data.ExtTreeMap
import Std.Data.ExtTreeSet
import Recompile.Bytes

/-!
# Module identifiers

A module is named by the path its host uses for it, with forward slashes.  Identifiers are ordered
by their text, which is the order of their UTF-8 bytes, and every ordered collection of modules
uses this order.
-/

namespace Recompile

/-- The name under which a module is known to the build. -/
structure ModuleId where
  /-- The path, as text. -/
  text : String
deriving DecidableEq, Inhabited

namespace ModuleId

/-- The identifier of a path: backslashes count as separators and become slashes. -/
def ofPath (path : String) : ModuleId :=
  ⟨String.ofList (path.toList.map fun c => if c = '\\' then '/' else c)⟩

/-- Identifiers are ordered by their text. -/
instance : Ord ModuleId := ⟨compareOn text⟩

instance : Std.OrientedOrd ModuleId :=
  inferInstanceAs (Std.OrientedCmp (compareOn text))

instance : Std.TransOrd ModuleId :=
  inferInstanceAs (Std.TransCmp (compareOn text))

instance : Std.LawfulEqOrd ModuleId where
  eq_of_compare {a b} h := by
    have : a.text = b.text := Std.LawfulEqOrd.eq_of_compare (α := String) h
    cases a; cases b; simp_all

instance : ToString ModuleId := ⟨text⟩

end ModuleId

end Recompile
