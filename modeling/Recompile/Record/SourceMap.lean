import Recompile.Json.Shape
import Recompile.Json.Reader
import Recompile.Packed.Basic

/-!
# Source maps

A source map relates emitted code to the texts it came from.  Every field of its JSON form may be
missing; the empty map supplies the value.
-/

namespace Recompile

/-- A source map. -/
structure SourceMap where
  /-- The revision of the format. -/
  version : UInt32
  /-- The emitted file. -/
  file : Option String
  /-- What is put before the names of the sources. -/
  sourceRoot : Option String
  /-- The names of the sources. -/
  sources : List String
  /-- The texts of the sources, where they are known. -/
  sourcesContent : Option (List (Option String))
  /-- The names that the mappings refer to. -/
  names : List String
  /-- The mappings, in their compressed form. -/
  mappings : String
deriving DecidableEq

namespace SourceMap

/-- The map that maps nothing. -/
def empty : SourceMap :=
  { version := 3, file := none, sourceRoot := none, sources := [], sourcesContent := none,
    names := [], mappings := "" }

instance : Inhabited SourceMap := ⟨empty⟩

/-- The keys of the JSON form, in order. -/
def fieldNames : List String :=
  ["version", "file", "sourceRoot", "sources", "sourcesContent", "names", "mappings"]

instance : JsonShape SourceMap where
  toJson m := .record [("version", toJson m.version), ("file", toJson m.file),
    ("sourceRoot", toJson m.sourceRoot), ("sources", toJson m.sources),
    ("sourcesContent", toJson m.sourcesContent), ("names", toJson m.names),
    ("mappings", toJson m.mappings)]
  ofJson? json := do
    match ← JsonShape.fields? fieldNames json with
    | [version, file, sourceRoot, sources, sourcesContent, names, mappings] =>
      return {
        version := ← JsonShape.withDefault empty.version version
        file := ← JsonShape.withDefault empty.file file
        sourceRoot := ← JsonShape.withDefault empty.sourceRoot sourceRoot
        sources := ← JsonShape.withDefault empty.sources sources
        sourcesContent := ← JsonShape.withDefault empty.sourcesContent sourcesContent
        names := ← JsonShape.withDefault empty.names names
        mappings := ← JsonShape.withDefault empty.mappings mappings }
    | _ => none

instance : Packed SourceMap where
  pack m := pack m.version ++ pack m.file ++ pack m.sourceRoot ++ pack m.sources
    ++ pack m.sourcesContent ++ pack m.names ++ pack m.mappings
  unpack := Packed.andThen unpack fun version => Packed.andThen unpack fun file =>
    Packed.andThen unpack fun sourceRoot => Packed.andThen unpack fun sources =>
    Packed.andThen unpack fun sourcesContent => Packed.andThen unpack fun names =>
    Packed.andThen unpack fun mappings =>
    Packed.done { version, file, sourceRoot, sources, sourcesContent, names, mappings }

/-- The source map that a JSON document describes. -/
def ofText? (document : String) : Option SourceMap := do
  ofJson? (← Json.read? document)

end SourceMap

end Recompile
