import Recompile.Toml.Draft
import Recompile.Toml.Number

/-!
# Reading documents

A document is a list of lines: a header opens a table, or the next table of a series; any other line
puts a value under a key of the table that was opened last.  Values in brackets may go over several
lines, values in braces may not.
-/

namespace Recompile.Toml

/-! ### Values -/

/-- The table of keys and values between braces. -/
def inlineTable? (members : List (Key × Toml)) : Option Toml := do
  let put (entries : Draft.Entries) (member : Key × Toml) :=
    Draft.put member.1 member.2 .header entries
  let entries ← members.foldlM put []
  return .table (Draft.closeEntries entries)

mutual

/-- A value with at most so many levels of brackets and braces. -/
def readValue : Nat → Nat → List Char → Option (Toml × List Char)
  | 0, _, _ => none
  | fuel + 1, depth, cs =>
    match cs with
    | '[' :: rest =>
      match depth with
      | 0 => none
      | depth + 1 => (readItems fuel depth rest).map fun (items, rest) => (.array items, rest)
    | '\x7b' :: rest =>
      match depth with
      | 0 => none
      | depth + 1 =>
        match skipSpace rest with
        | '\x7d' :: rest => some (.table [], rest)
        | rest => do
          let (members, rest) ← readMembers fuel depth rest
          return (← inlineTable? members, rest)
    | '"' :: _ => (readText cs).map fun (content, rest) => (.text content, rest)
    | '\'' :: _ => (readText cs).map fun (content, rest) => (.text content, rest)
    | cs => readScalar cs

/-- Items, up to the closing bracket. -/
def readItems : Nat → Nat → List Char → Option (List Toml × List Char)
  | 0, _, _ => none
  | fuel + 1, depth, cs =>
    match skipLines false cs with
    | none => none
    | some (']' :: rest) => some ([], rest)
    | some cs =>
      match readValue fuel depth cs with
      | none => none
      | some (item, rest) =>
        match skipLines false rest with
        | some (',' :: rest) =>
          (readItems fuel depth rest).map fun (items, rest) => (item :: items, rest)
        | some (']' :: rest) => some ([item], rest)
        | _ => none

/-- One or more members, up to the closing brace. -/
def readMembers : Nat → Nat → List Char → Option (List (Key × Toml) × List Char)
  | 0, _, _ => none
  | fuel + 1, depth, cs =>
    match readKey cs with
    | some (key, '=' :: rest) =>
      match readValue fuel depth (skipSpace rest) with
      | none => none
      | some (value, rest) =>
        match skipSpace rest with
        | ',' :: rest =>
          (readMembers fuel depth rest).map fun (members, rest) => ((key, value) :: members, rest)
        | '\x7d' :: rest => some ([(key, value)], rest)
        | _ => none
    | _ => none

end

/-! ### Lines -/

/-- The part of a document that was read: its tables, and the keys that lead to the table that was
opened last. -/
structure Progress where
  /-- The document so far. -/
  entries : Draft.Entries
  /-- The keys of the last header. -/
  opened : List String

/-- Reads one line that has more than blanks and comments; `fuel` bounds the steps of a value. -/
def readLine (fuel : Nat) (progress : Progress) : List Char → Option (Progress × List Char)
  | '[' :: '[' :: rest =>
    match readKey rest with
    | some (key, ']' :: ']' :: rest) => do
      let entries ← Draft.openNext key progress.entries
      return (⟨entries, key.parents ++ [key.last]⟩, ← endLine rest)
    | _ => none
  | '[' :: rest =>
    match readKey rest with
    | some (key, ']' :: rest) => do
      let entries ← Draft.openTable key progress.entries
      return (⟨entries, key.parents ++ [key.last]⟩, ← endLine rest)
    | _ => none
  | cs =>
    match readKey cs with
    | some (key, '=' :: rest) => do
      let (value, rest) ← readValue fuel maxDepth (skipSpace rest)
      let entries ← Draft.putIn progress.opened key value progress.entries
      return (⟨entries, progress.opened⟩, ← endLine rest)
    | _ => none

/-- Reads lines up to the end of the document. -/
def readLines (fuel : Nat) : Nat → Progress → List Char → Option Draft.Entries
  | 0, _, _ => none
  | lines + 1, progress, cs =>
    match skipLines false cs with
    | none => none
    | some [] => some progress.entries
    | some cs =>
      match readLine fuel progress cs with
      | none => none
      | some (progress, rest) => readLines fuel lines progress rest

/-- The document without a byte order mark. -/
def skipMark : List Char → List Char
  | '\uFEFF' :: rest => rest
  | cs => cs

/-- The table of a whole document. -/
def read? (document : String) : Option Table := do
  let cs := skipMark document.toList
  -- Every line has a character, and of two steps of a value one consumes a character.
  let entries ← readLines (2 * cs.length + 2) (cs.length + 1) ⟨[], []⟩ cs
  return Draft.closeEntries entries

end Recompile.Toml
