import Recompile.ImportGraph.Basic
import Recompile.Json.Printer
import Recompile.Json.Reader
import Recompile.Record.Basic
import Recompile.Storage.Write

/-!
# Manifests

The manifest of a namespace says, for each module, which content was last seen, at which generation
the module is, and under which keys its results are stored; and it keeps the edges of the import
graph.  It is one JSON document, written last of all, so that the keys it names already exist.
Modules are kept in order, so equal manifests have equal documents.
-/

namespace Recompile

/-- What a manifest knows about one module. -/
structure FileState where
  /-- The digest of the text last seen. -/
  content : Option Digest
  /-- How often a module connected to this one has changed. -/
  generation : UInt64
  /-- The key of the stored output. -/
  codeKey : Option String
  /-- The key of the stored findings. -/
  diagnosticsKey : Option String
deriving DecidableEq

namespace FileState

/-- Nothing is known yet. -/
def unknown : FileState := ⟨none, 0, none, none⟩

instance : Inhabited FileState := ⟨unknown⟩

/-- The key of the stored result of a shelf. -/
def key? (state : FileState) : Shelf → Option String
  | .code => state.codeKey
  | .diagnostics => state.diagnosticsKey

/-- The state with the key of a shelf replaced. -/
def withKey (state : FileState) (shelf : Shelf) (key : String) : FileState :=
  match shelf with
  | .code => { state with codeKey := some key }
  | .diagnostics => { state with diagnosticsKey := some key }

instance : JsonShape FileState where
  toJson s := .record [("content_fingerprint", toJson s.content),
    ("generation", toJson s.generation), ("code_key", toJson s.codeKey),
    ("diagnostics_key", toJson s.diagnosticsKey)]
  ofJson? json := do
    match ← JsonShape.allFields?
        ["content_fingerprint", "generation", "code_key", "diagnostics_key"] json with
    | [content, generation, codeKey, diagnosticsKey] =>
      return ⟨← JsonShape.withDefault none content, ← JsonShape.required generation,
        ← JsonShape.withDefault none codeKey, ← JsonShape.withDefault none diagnosticsKey⟩
    | _ => none

end FileState

/-- What is persisted about the modules of one configuration. -/
structure Manifest where
  /-- The format version. -/
  format : UInt32
  /-- The tool whose results are stored. -/
  tool : String
  /-- The configuration. -/
  config : Digest
  /-- What is known about each module. -/
  files : Std.ExtTreeMap ModuleId FileState
  /-- The edges of the import graph. -/
  edges : List Edge
deriving DecidableEq

namespace Manifest

/-- The manifest of a namespace without results. -/
def fresh (tool : String) (config : Digest) : Manifest :=
  { format := formatVersion, tool, config, files := ∅, edges := [] }

/-- Whether a manifest describes results of this tool under this configuration. -/
def isCompatible (manifest : Manifest) (tool : String) (config : Digest) : Bool :=
  manifest.format = formatVersion && manifest.tool = tool && manifest.config = config

/-! ### The state of a module -/

/-- What is known about a module. -/
def state (manifest : Manifest) (id : ModuleId) : FileState :=
  manifest.files[id]?.getD .unknown

/-- The generation of a module, zero if nothing is known about it. -/
def generation (manifest : Manifest) (id : ModuleId) : UInt64 :=
  (manifest.state id).generation

/-- The digest of the text that was last seen of a module. -/
def content? (manifest : Manifest) (id : ModuleId) : Option Digest :=
  (manifest.state id).content

/-- The manifest with the state of one module changed. -/
def update (manifest : Manifest) (id : ModuleId) (change : FileState → FileState) : Manifest :=
  { manifest with files := manifest.files.insert id (change (manifest.state id)) }

/-- Changing one module changes that module and leaves the others alone. -/
theorem state_update (manifest : Manifest) (id other : ModuleId)
    (change : FileState → FileState) :
    (manifest.update id change).state other =
      if other = id then change (manifest.state id) else manifest.state other := by
  simp only [state, update, Std.ExtTreeMap.getElem?_insert, Std.LawfulEqCmp.compare_eq_iff_eq]
  by_cases h : other = id
  · subst h
    simp
  · simp [h, Ne.symm h]

/-- The manifest with the text last seen of a module recorded. -/
def recordContent (manifest : Manifest) (id : ModuleId) (content : Digest) : Manifest :=
  manifest.update id fun state => { state with content := some content }

/-- The manifest with the generation of a module raised by one. -/
def raise (manifest : Manifest) (id : ModuleId) : Manifest :=
  manifest.update id fun state => { state with generation := state.generation + 1 }

/-- The manifest with the key of a stored result recorded. -/
def recordKey (manifest : Manifest) (shelf : Shelf) (id : ModuleId) (key : String) : Manifest :=
  manifest.update id fun state => state.withKey shelf key

/-- The keys of a shelf that the manifest names. -/
def liveKeys (manifest : Manifest) (shelf : Shelf) : List String :=
  manifest.files.toList.filterMap fun entry => entry.2.key? shelf

/-! ### The document -/

/-- The states that the members of an object give; of several for one module the last counts. -/
def filesOfMembers (members : List (Option String × Json)) :
    Option (Std.ExtTreeMap ModuleId FileState) :=
  members.foldlM (fun files (key, value) => do
    return files.insert ⟨← key⟩ (← ofJson? value)) ∅

instance : JsonShape (Std.ExtTreeMap ModuleId FileState) where
  toJson files := .object (files.toList.map fun entry => (some entry.1.text, toJson entry.2))
  ofJson?
    | .object members => filesOfMembers members
    | _ => none

instance : JsonShape Manifest where
  toJson m := .record [("format_version", toJson m.format), ("tool_version", toJson m.tool),
    ("config", toJson m.config), ("files", toJson m.files), ("edges", toJson m.edges)]
  ofJson? json := do
    match ← JsonShape.allFields?
        ["format_version", "tool_version", "config", "files", "edges"] json with
    | [format, tool, config, files, edges] =>
      return ⟨← JsonShape.required format, ← JsonShape.required tool, ← JsonShape.required config,
        ← JsonShape.required files, ← JsonShape.required edges⟩
    | _ => none

/-- The document of a manifest. -/
def document (manifest : Manifest) : String := (toJson manifest).pretty

/-- The manifest that a document describes. -/
def ofDocument? (document : String) : Option Manifest := do
  ofJson? (← Json.read? document)

/-! ### The file -/

/-- The name of the file. -/
def fileName : Path := ⟨"manifest.json"⟩

/-- The manifest in a directory, if there is one. -/
def load (disk : Disk) (directory : Path) : Except StorageError (Option Manifest) :=
  let path := directory.join fileName
  match disk.readText path with
  | .error fault => if fault.isNotFound then .ok none else .error (.disk path fault)
  | .ok text =>
    match ofDocument? text with
    | some manifest => .ok (some manifest)
    | none => .error (.manifest "not a manifest document")

/-- The write that replaces the manifest in a directory. -/
def saving (manifest : Manifest) (directory : Path) : Write :=
  ⟨directory.join fileName, Bytes.ofText manifest.document⟩

/-- Replaces the manifest in a directory. -/
def save (manifest : Manifest) (disk : Disk) (directory : Path) :
    Except StorageError Unit × Disk :=
  (manifest.saving directory).run disk

end Manifest

end Recompile
