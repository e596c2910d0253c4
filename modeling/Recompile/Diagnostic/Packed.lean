import Recompile.Diagnostic.Basic
import Recompile.Packed.Basic

/-!
# The packed form of diagnostics

Severities and categories are packed as their places, in the order in which they are declared.
-/

namespace Recompile

instance : Packed Severity where
  pack s := Packed.packNat s.rank
  unpack := Packed.unpackChoice Severity.all

instance : Packed Category where
  pack c := Packed.packNat c.rank
  unpack := Packed.unpackChoice Category.all

instance : Packed Position where
  pack p := pack p.line ++ pack p.column
  unpack := Packed.andThen unpack fun line => Packed.andThen unpack fun column =>
    Packed.done { line, column }

instance : Packed Diagnostic where
  pack d := pack d.category ++ pack d.severity ++ pack d.code ++ pack d.message ++ pack d.file
    ++ pack d.position
  unpack := Packed.andThen unpack fun category => Packed.andThen unpack fun severity =>
    Packed.andThen unpack fun code => Packed.andThen unpack fun message =>
    Packed.andThen unpack fun file => Packed.andThen unpack fun position =>
    Packed.done { category, severity, code, message, file, position }

end Recompile
