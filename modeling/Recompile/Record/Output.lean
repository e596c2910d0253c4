import Recompile.Record.SourceMap

/-!
# What compiling a module yields

An output is what the cache keeps of one emission: the code, its source map and the declaration.
An output without code records that the emission failed.
-/

namespace Recompile

/-- A declaration file that the compiler produced. -/
structure Declaration where
  /-- The path the compiler gave it. -/
  path : String
  /-- Its text. -/
  text : String
  /-- Whether the file starts with a byte order mark. -/
  writeMark : Bool
deriving DecidableEq, Inhabited

namespace Declaration

instance : JsonShape Declaration where
  toJson d := .record [("path", toJson d.path), ("text", toJson d.text),
    ("write_bom", toJson d.writeMark)]
  ofJson? json := do
    match ← JsonShape.allFields? ["path", "text", "write_bom"] json with
    | [path, text, writeMark] =>
      return ⟨← JsonShape.required path, ← JsonShape.required text, ← JsonShape.required writeMark⟩
    | _ => none

instance : Packed Declaration where
  pack d := pack d.path ++ pack d.text ++ pack d.writeMark
  unpack := Packed.andThen unpack fun path => Packed.andThen unpack fun text =>
    Packed.andThen unpack fun writeMark => Packed.done { path, text, writeMark }

end Declaration

/-- What compiling a module yields. -/
structure Output where
  /-- The code, unless the emission failed. -/
  code : Option String
  /-- The source map of the code. -/
  map : Option SourceMap
  /-- The declaration. -/
  declaration : Option Declaration
deriving DecidableEq

namespace Output

/-- The output of an emission that yields nothing at all. -/
def nothing : Output := ⟨none, none, none⟩

instance : Inhabited Output := ⟨nothing⟩

/-- The output that is only code. -/
def ofCode (code : String) : Output := ⟨some code, none, none⟩

/-- Whether the emission failed. -/
def failed (output : Output) : Bool := output.code.isNone

instance : JsonShape Output where
  toJson o := .record [("emitted_code", toJson o.code), ("source_map", toJson o.map),
    ("declaration", toJson o.declaration)]
  ofJson? json := do
    match ← JsonShape.allFields? ["emitted_code", "source_map", "declaration"] json with
    | [code, map, declaration] =>
      return ⟨← JsonShape.withDefault none code, ← JsonShape.withDefault none map,
        ← JsonShape.withDefault none declaration⟩
    | _ => none

instance : Packed Output where
  pack o := pack o.code ++ pack o.map ++ pack o.declaration
  unpack := Packed.andThen unpack fun code => Packed.andThen unpack fun map =>
    Packed.andThen unpack fun declaration => Packed.done { code, map, declaration }

end Output

end Recompile
