import Recompile.Disk.Basic
import Recompile.Options.Basic
import Recompile.Text.Quoted
import Recompile.Toml.Reader

/-!
# Options from a document

Options are read from a document in the project's directory.  Keys that name no option are skipped.
A document can fail in three ways, one after the other: it cannot be read, it cannot be understood,
or it says something that makes no sense (`Options.objection?`).
-/

namespace Recompile

/-- Why there are no options. -/
inductive OptionsError where
  /-- The document cannot be read. -/
  | unreadable (fault : Disk.Fault)
  /-- The document cannot be understood. -/
  | malformed (reason : String)
  /-- An option makes no sense. -/
  | invalid (reason : String)
  /-- The compiler options have no canonical text. -/
  | unwritable (reason : String)
deriving DecidableEq

/-- The text of an error. -/
def OptionsError.message : OptionsError → String
  | unreadable fault => "failed to read options: " ++ fault.text
  | malformed reason => "failed to parse options: " ++ reason
  | invalid reason => "validation error: " ++ reason
  | unwritable reason => "failed to serialize compiler options: " ++ reason

namespace Options

/-! ### Values of options -/

/-- The truth value. -/
def flag? : Toml → Option Bool
  | .boolean value => some value
  | _ => none

/-- The text. -/
def text? : Toml → Option String
  | .text value => some value
  | _ => none

/-- The list of texts. -/
def texts? : Toml → Option (List String)
  | .array items => items.mapM text?
  | _ => none

/-- Whether a value holds nothing. -/
def isEmptyValue : Toml → Bool
  | .array items => items.isEmpty
  | .table entries => entries.isEmpty
  | _ => false

/-- The verbosity: its name, or a table with the name as the only key and nothing under it. -/
def verbosity? : Toml → Option Verbosity
  | .text name => Verbosity.all.find? (·.name = name)
  | .table [(name, value)] =>
    if isEmptyValue value then Verbosity.all.find? (·.name = name) else none
  | _ => none

/-- The key that marks a table as the description of a moment. -/
def momentKey : String := "$__toml_private_datetime"

mutual

/-- The value with every table that describes a moment replaced by that moment. -/
def resolveMoments : Toml → Option Toml
  | .array items => (resolveItems items).map .array
  | .table [] => some (.table [])
  | .table ((key, value) :: rest) =>
    if key = momentKey then text? value >>= fun text => (Toml.Moment.ofText? text).map .moment
    else do
      let value ← resolveMoments value
      let rest ← resolveEntries rest
      return .table ((key, value) :: rest)
  | value => some value

/-- The items, in the same way. -/
def resolveItems : List Toml → Option (List Toml)
  | [] => some []
  | item :: rest => do
    let item ← resolveMoments item
    let rest ← resolveItems rest
    return item :: rest

/-- The entries of a table that describes no moment, in the same way. -/
def resolveEntries : List (String × Toml) → Option (List (String × Toml))
  | [] => some []
  | (key, value) :: rest => do
    let value ← resolveMoments value
    let rest ← resolveEntries rest
    return (key, value) :: rest

end

/-- The compiler options.  A lone moment counts as the table that describes it. -/
def compiler? : Toml → Option Toml.Table
  | .table entries => (resolveEntries entries).map Toml.sortedEntries
  | .moment value => some [(momentKey, .text value.text)]
  | _ => none

/-! ### The document -/

/-- The value of an option that a document gives, or else the default. -/
def given {α : Type} (table : Toml.Table) (key : String) (decode : Toml → Option α) (default : α) :
    Option α :=
  match table.get? key with
  | some value => decode value
  | none => some default

/-- The options that a table gives. -/
def ofTable? (table : Toml.Table) : Option Options := do
  let default : Options := {}
  let cacheRoot ← given table "cache_root" text? default.cacheRoot.text
  return {
    check := ← given table "check" flag? default.check
    clean := ← given table "clean" flag? default.clean
    cacheRoot := ⟨cacheRoot⟩
    abortOnError := ← given table "abort_on_error" flag? default.abortOnError
    verbosity := ← given table "verbosity" verbosity? default.verbosity
    selected := ← given table "include" texts? default.selected
    excluded := ← given table "exclude" texts? default.excluded
    declarationsInPlace :=
      ← given table "use_tsconfig_declaration_dir" flag? default.declarationsInPlace
    compiler := ← given table "compiler" compiler? default.compiler }

/-- What makes no sense about the options. -/
def objection? (options : Options) : Option String :=
  if options.cacheRoot.text.isEmpty then some "cache_root must not be empty"
  else if options.selected.isEmpty then some "include must list at least one pattern"
  else
    ((options.selected ++ options.excluded).find? Text.isAllBlank).map fun pattern =>
      "blank file pattern " ++ Text.quoted pattern

/-- The options that a document gives. -/
def ofDocument (document : String) : Except OptionsError Options :=
  match Toml.read? document >>= ofTable? with
  | none => .error (.malformed "not an options document")
  | some options =>
    match options.objection? with
    | some reason => .error (.invalid reason)
    | none => .ok options

/-- The name of the document. -/
def fileName : Path := ⟨"tsforge.toml"⟩

/-- The options of the project in a directory. -/
def load (disk : Disk) (directory : Path) : Except OptionsError Options :=
  match disk.readText (directory.join fileName) with
  | .error fault => .error (.unreadable fault)
  | .ok document => ofDocument document

end Options

end Recompile
