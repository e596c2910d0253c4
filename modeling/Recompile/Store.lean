import Std.Data.ExtTreeMap

/-!
# Keyed stores

A store holds one value per key, in the order of the keys.  Putting and removing a value say what
was there before.
-/

namespace Recompile

/-- One value per key, in order. -/
abbrev Store (κ υ : Type) [Ord κ] := Std.ExtTreeMap κ υ

namespace Store

variable {κ υ : Type} [Ord κ] [Std.TransOrd κ]

/-- Puts a value, and gives the one it replaces. -/
def upsert (store : Store κ υ) (key : κ) (value : υ) : Option υ × Store κ υ :=
  (store[key]?, store.insert key value)

/-- Removes a value, and gives it. -/
def evict (store : Store κ υ) (key : κ) : Option υ × Store κ υ :=
  (store[key]?, store.erase key)

/-- Changes the value of a key that has one, and gives the new value. -/
def amend (store : Store κ υ) (key : κ) (change : υ → υ) : Option υ × Store κ υ :=
  match store[key]? with
  | some value => (some (change value), store.insert key (change value))
  | none => (none, store)

end Store

end Recompile
