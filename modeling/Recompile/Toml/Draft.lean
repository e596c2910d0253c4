import Recompile.Toml.Key

/-!
# Tables as they are built

While a document is read, each table remembers how it came about, because that decides what may
still be added to it: a table that has a header may get no second one, a table that was only passed
through by a header may still get its own, and a table made by a dotted key is closed to headers.
Tables and arrays given as values are closed altogether.
-/

namespace Recompile.Toml

/-- How a table came about. -/
inductive Origin where
  /-- It has a header, or it is the document. -/
  | header
  /-- A header passed through it. -/
  | passed
  /-- A dotted key passed through it. -/
  | dotted
deriving DecidableEq

/-- What is known under a key so far. -/
inductive Draft where
  /-- A value. -/
  | value (value : Toml)
  /-- A table that is not given as a value. -/
  | table (origin : Origin) (entries : List (String × Draft))
  /-- Tables under headers of the same name: those before the last, and the last. -/
  | series (earlier : List (List (String × Draft))) (last : List (String × Draft))

namespace Draft

/-- What is known under the keys of a table. -/
abbrev Entries := List (String × Draft)

/-- The entries without a key. -/
def erase (key : String) (entries : Entries) : Entries :=
  entries.filter fun entry => entry.1 ≠ key

/-- The entries with what is under a key replaced. -/
def replace (key : String) (draft : Draft) (entries : Entries) : Entries :=
  entries.map fun entry => if entry.1 = key then (key, draft) else entry

/-- Changes the table that keys lead to.  Tables that are missing on the way are made, and remember
what made them; of a series the last table is meant. -/
def alter (maker : Origin) (change : Origin → Entries → Option Entries) :
    List String → Origin → Entries → Option Entries
  | [], origin, entries => change origin entries
  | key :: keys, _, entries =>
    match entries.lookup key with
    | none =>
      (alter maker change keys maker []).map fun made => entries ++ [(key, .table maker made)]
    | some (.value _) => none
    | some (.table origin inner) =>
      if maker = .dotted ∧ origin = .header then none
      else
        (alter maker change keys origin inner).map fun changed =>
          replace key (.table origin changed) entries
    | some (.series earlier last) =>
      (alter maker change keys .header last).map fun changed =>
        replace key (.series earlier changed) entries

/-- Puts a value under a key.  Dotted keys lead only into tables made by dotted keys. -/
def put (key : Key) (value : Toml) (origin : Origin) (entries : Entries) : Option Entries :=
  alter .dotted (fun origin entries =>
    if (origin = .dotted) = key.parents.isEmpty then none
    else if (entries.lookup key.last).isSome then none
    else some (entries ++ [(key.last, .value value)])) key.parents origin entries

/-- Opens the table of a header. -/
def openTable (key : Key) (entries : Entries) : Option Entries :=
  alter .passed (fun _ entries =>
    match entries.lookup key.last with
    | none => some (entries ++ [(key.last, .table .header [])])
    | some (.table .passed inner) =>
      some (erase key.last entries ++ [(key.last, .table .header inner)])
    | some _ => none) key.parents .header entries

/-- Opens the next table of a series. -/
def openNext (key : Key) (entries : Entries) : Option Entries :=
  alter .passed (fun _ entries =>
    match entries.lookup key.last with
    | none => some (entries ++ [(key.last, .series [] [])])
    | some (.series earlier last) =>
      some (replace key.last (.series (earlier ++ [last]) []) entries)
    | some _ => none) key.parents .header entries

/-- Puts a value under a key of the table that was opened last, to which the keys lead. -/
def putIn (opened : List String) (key : Key) (value : Toml) (entries : Entries) : Option Entries :=
  alter .passed (put key value) opened .header entries

mutual

/-- The value, when nothing is added any more. -/
def close : Draft → Toml
  | .value known => known
  | .table _ entries => .table (closeEntries entries)
  | .series earlier last => .array (closeSeries earlier ++ [.table (closeEntries last)])

/-- The table of the entries. -/
def closeEntries : List (String × Draft) → Table
  | [] => []
  | (key, draft) :: rest => (key, draft.close) :: closeEntries rest

/-- The tables of a series. -/
def closeSeries : List (List (String × Draft)) → List Toml
  | [] => []
  | entries :: rest => .table (closeEntries entries) :: closeSeries rest

end

end Draft

end Recompile.Toml
