import Recompile.Record.Slot
import Recompile.Snapshot.Basic

/-!
# Compilers

A session drives a compiler that can emit and check single modules.  The compiler has a state of its
own, which every call may change.  Of an emission the session keeps the first file of each kind
(`Emission.output`).
-/

namespace Recompile

/-- A file that an emission yields. -/
structure OutputFile where
  /-- The path the compiler gives it; its ending tells what it is. -/
  name : String
  /-- Its text. -/
  text : String
  /-- Whether the file starts with a byte order mark. -/
  writeMark : Bool
deriving DecidableEq, Inhabited

/-- What the compiler yields for a module. -/
structure Emission where
  /-- Whether there is nothing usable. -/
  skipped : Bool
  /-- The files. -/
  files : List OutputFile
deriving DecidableEq, Inhabited

namespace OutputFile

/-- Whether the name of the file ends like this. -/
def endsWith (file : OutputFile) (ending : String) : Bool :=
  ending.toList.isSuffixOf file.name.toList

/-- Whether the file holds code. -/
def isCode (file : OutputFile) : Bool :=
  file.endsWith ".js" || file.endsWith ".jsx"

/-- Whether the file holds a map. -/
def isMap (file : OutputFile) : Bool :=
  file.endsWith ".map"

/-- Whether the file holds a declaration. -/
def isDeclaration (file : OutputFile) : Bool :=
  file.endsWith ".d.ts"

/-- The file as a declaration. -/
def declaration (file : OutputFile) : Declaration :=
  { path := file.name, text := file.text, writeMark := file.writeMark }

end OutputFile

namespace Emission

/-- The code, unless the emission was skipped or has none. -/
def code? (emission : Emission) : Option String :=
  if emission.skipped then none
  else (emission.files.find? OutputFile.isCode).map OutputFile.text

/-- The source map; a missing or unreadable one maps nothing. -/
def map (emission : Emission) : SourceMap :=
  ((emission.files.find? OutputFile.isMap).bind fun file => SourceMap.ofText? file.text).getD .empty

/-- The declaration. -/
def declaration? (emission : Emission) : Option Declaration :=
  (emission.files.find? OutputFile.isDeclaration).map OutputFile.declaration

/-- What is kept of an emission. -/
def output (emission : Emission) : Output :=
  { code := emission.code?, map := some emission.map, declaration := emission.declaration? }

end Emission

/-- A compiler with a state. -/
structure Compiler (σ : Type) where
  /-- Its version. -/
  version : String
  /-- Compiles a module. -/
  emit : Snapshot → σ → Emission × σ
  /-- Checks a module in one pass. -/
  check : Pass → Snapshot → σ → List Diagnostic × σ
  /-- Checks the options. -/
  checkOptions : σ → List Diagnostic × σ

/-- Computes a part of the record of a module. -/
def Compiler.compute {σ : Type} (compiler : Compiler σ) (snapshot : Snapshot) :
    (part : Part) → σ → part.Value × σ
  | .output, state =>
    let (emission, state) := compiler.emit snapshot state
    (emission.output, state)
  | .findings pass, state => compiler.check pass snapshot state

end Recompile
