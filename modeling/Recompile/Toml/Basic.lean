import Recompile.Decimal.Binary64
import Recompile.Toml.Moment

/-!
# TOML values

A configuration document is a table: a list of keys with values.  Tables keep the order of the
document; `Toml.sorted` puts the keys of a table and of all tables in it in order, so that documents
that differ only in the order of keys give the same value.
-/

namespace Recompile

/-- A value of a configuration document. -/
inductive Toml where
  /-- A text. -/
  | text (value : String)
  /-- An integer of 64 bits. -/
  | integer (value : Int)
  /-- A number with a fraction. -/
  | float (value : Binary64)
  /-- A truth value. -/
  | boolean (value : Bool)
  /-- A date or a time. -/
  | moment (value : Toml.Moment)
  /-- Several values. -/
  | array (items : List Toml)
  /-- Values under keys. -/
  | table (entries : List (String × Toml))
deriving Inhabited

namespace Toml

/-- Values under keys. -/
abbrev Table := List (String × Toml)

/-- The value under a key. -/
def Table.get? (table : Table) (key : String) : Option Toml :=
  table.lookup key

/-- The entries with one put in its place among those that are in order. -/
def insertSorted (entry : String × Toml) : Table → Table
  | [] => [entry]
  | first :: rest =>
    if entry.1 < first.1 then entry :: first :: rest else first :: insertSorted entry rest

mutual

/-- The value with the keys of all its tables in order. -/
def sorted : Toml → Toml
  | .array items => .array (sortedItems items)
  | .table entries => .table (sortedEntries entries)
  | value => value

/-- The items with the keys of all their tables in order. -/
def sortedItems : List Toml → List Toml
  | [] => []
  | item :: rest => item.sorted :: sortedItems rest

/-- The entries in the order of their keys, and so within them. -/
def sortedEntries : List (String × Toml) → List (String × Toml)
  | [] => []
  | (key, value) :: rest => insertSorted (key, value.sorted) (sortedEntries rest)

end

/-- Whether a value is a table. -/
def isTable : Toml → Bool
  | .table _ => true
  | _ => false

end Toml

end Recompile
