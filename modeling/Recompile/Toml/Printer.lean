import Recompile.Decimal.Shortest
import Recompile.Toml.Key

/-!
# The canonical text of a table

Each table writes its plain values first, one to a line, and then its tables and series, each under
a header with the full key.  Blocks of lines are separated by an empty line.  A table that has
nothing but tables writes no header of its own.  Keys and strings take the first form that needs no
escape.
-/

namespace Recompile.Toml

/-! ### Strings and keys -/

/-- Whether a character is a control that no form without escapes can hold. -/
def needsEscape (c : Char) : Bool :=
  (c.toNat < 0x20 && c ≠ '\t' && c ≠ '\n') || c.toNat = 0x7F

/-- The longest run of a character, after a run of the given length. -/
def longestRun (wanted : Char) : Nat → List Char → Nat
  | run, [] => run
  | run, c :: rest =>
    if c = wanted then longestRun wanted (run + 1) rest else max run (longestRun wanted 0 rest)

/-- Four or more upper-case hexadecimal digits. -/
def upperHex (n : Nat) : List Char :=
  let digits := (Nat.toDigits 16 n).map Char.toUpper
  List.replicate (4 - digits.length) '0' ++ digits

/-- A character between quotes, other than quotes and line ends. -/
def escaped (c : Char) : List Char :=
  if c = '\x08' then ['\\', 'b']
  else if c = '\t' then ['\\', 't']
  else if c = '\x0c' then ['\\', 'f']
  else if c = '\r' then ['\\', 'r']
  else if c = '\\' then ['\\', '\\']
  else if needsEscape c then '\\' :: 'u' :: upperHex c.toNat
  else [c]

/-- The inside of a string between quotes, after a run of quotes that stand unescaped.  In the long
form line ends stand as they are, and of a run of quotes every third is escaped. -/
def escapedText (long : Bool) : Nat → List Char → List Char
  | _, [] => []
  | run, '"' :: rest =>
    if long ∧ run < 2 then '"' :: escapedText long (run + 1) rest
    else '\\' :: '"' :: escapedText long 0 rest
  | _, '\n' :: rest =>
    if long then '\n' :: escapedText long 0 rest else '\\' :: 'n' :: escapedText long 0 rest
  | _, c :: rest => escaped c ++ escapedText long 0 rest

/-- A string between quotes. -/
def basicForm (cs : List Char) : List Char :=
  '"' :: escapedText false 0 cs ++ ['"']

/-- A string between apostrophes. -/
def literalForm (cs : List Char) : List Char :=
  '\'' :: cs ++ ['\'']

/-- What follows the opening delimiter of a long form: a line end, if the string has any. -/
def opening (cs : List Char) : List Char :=
  if '\n' ∈ cs then ['\n'] else []

/-- A string between three quotes. -/
def longBasicForm (cs : List Char) : List Char :=
  ['"', '"', '"'] ++ opening cs ++ escapedText true 0 cs ++ ['"', '"', '"']

/-- A string between three apostrophes. -/
def longLiteralForm (cs : List Char) : List Char :=
  ['\'', '\'', '\''] ++ opening cs ++ cs ++ ['\'', '\'', '\'']

/-- A string in the first form that holds it without escapes, or else with them. -/
def textForm (text : String) : List Char :=
  let cs := text.toList
  let controls := cs.any needsEscape
  let lines := cs.contains '\n'
  let backslash := cs.contains '\\'
  let quotes := longestRun '"' 0 cs
  let apostrophes := longestRun '\'' 0 cs
  if !controls && !backslash && quotes = 0 && !lines then basicForm cs
  else if !controls && apostrophes = 0 && !lines then literalForm cs
  else if !controls && !backslash && quotes ≤ 2 then longBasicForm cs
  else if !controls && apostrophes ≤ 2 then longLiteralForm cs
  else if lines then longBasicForm cs
  else basicForm cs

/-- One part of a key. -/
def keyForm (part : String) : List Char :=
  let cs := part.toList
  let controls := cs.any fun c => needsEscape c || c = '\n'
  if !cs.isEmpty && cs.all isBare then cs
  else if !controls && !cs.contains '\\' && !cs.contains '"' then basicForm cs
  else if !controls && !cs.contains '\'' then literalForm cs
  else basicForm cs

/-- A key of several parts. -/
def keysForm (parts : List String) : List Char :=
  ['.'].intercalate (parts.map keyForm)

/-! ### Values on one line -/

mutual

/-- A value on one line, unless it has strings of several. -/
def inlineForm : Toml → List Char
  | .text value => textForm value
  | .integer value => (toString value).toList
  | .float value => (Decimal.text value).toList
  | .boolean value => if value then ['t', 'r', 'u', 'e'] else ['f', 'a', 'l', 's', 'e']
  | .moment value => value.text.toList
  | .array items => '[' :: [',', ' '].intercalate (itemForms items) ++ [']']
  | .table [] => ['\x7b', '\x7d']
  | .table (entry :: entries) =>
    ['\x7b', ' '] ++ [',', ' '].intercalate (entryForms (entry :: entries)) ++ [' ', '\x7d']

/-- The items of an array. -/
def itemForms : List Toml → List (List Char)
  | [] => []
  | item :: rest => inlineForm item :: itemForms rest

/-- The entries of a table. -/
def entryForms : List (String × Toml) → List (List Char)
  | [] => []
  | (key, value) :: rest => (keyForm key ++ [' ', '=', ' '] ++ inlineForm value) :: entryForms rest

end

/-! ### Blocks -/

/-- Whether an array is written as a series of tables. -/
def isSeries (items : List Toml) : Bool :=
  !items.isEmpty && items.all isTable

/-- Whether a value is written under a header. -/
def hasHeader : Toml → Bool
  | .table _ => true
  | .array items => isSeries items
  | _ => false

/-- The entries that are written as lines of their table. -/
def plainEntries (entries : Table) : Table :=
  entries.filter fun entry => !hasHeader entry.2

/-- Lines, each with its end. -/
abbrev Block := List Char

/-- The lines of the plain entries of a table, after lines that are given. -/
def linesOf (header : List (List Char)) (entries : Table) : Block :=
  (header ++ entryForms (plainEntries entries)).flatMap fun line => line ++ ['\n']

mutual

/-- The blocks of what is under a key. -/
def blocks (path : List String) : Toml → List Block
  | .table entries =>
    let nested := nestedBlocks path entries
    if !entries.isEmpty && (plainEntries entries).isEmpty then nested
    else linesOf ['[' :: keysForm path ++ [']']] entries :: nested
  | .array items => if isSeries items then seriesBlocks path items else []
  | _ => []

/-- The blocks of the tables and series in a table. -/
def nestedBlocks (path : List String) : List (String × Toml) → List Block
  | [] => []
  | (key, value) :: rest => blocks (path ++ [key]) value ++ nestedBlocks path rest

/-- The blocks of the tables of a series. -/
def seriesBlocks (path : List String) : List Toml → List Block
  | [] => []
  | .table entries :: rest =>
    linesOf [['[', '['] ++ keysForm path ++ [']', ']']] entries
      :: nestedBlocks path entries ++ seriesBlocks path rest
  | _ :: rest => seriesBlocks path rest

end

/-- The canonical text of a table whose keys are in order. -/
def document (entries : Table) : String :=
  let nested := nestedBlocks [] entries
  let all := if (plainEntries entries).isEmpty then nested else linesOf [] entries :: nested
  String.ofList (['\n'].intercalate all)

end Recompile.Toml
