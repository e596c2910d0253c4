import Recompile.ModuleId
import Recompile.Options.Basic
import Recompile.Digest.Basic
import Recompile.Storage.Error
import Recompile.Toml.Printer

/-!
# Fingerprints of configurations

A configuration is what can change the results of compiling a module other than the modules
themselves: the format in which results are kept, the version of the compiler, its options, and the
set of entry modules.  Its fingerprint is the digest of these parts; the other options of a project
have no part in it.
-/

namespace Recompile.Options

/-- The canonical text of the compiler options. -/
def canonical (options : Options) : String :=
  Toml.document options.compiler

/-- The entry modules without repetitions, in order. -/
def entrySet (entries : List ModuleId) : List ModuleId :=
  (entries.foldl Std.ExtTreeSet.insert (∅ : Std.ExtTreeSet ModuleId)).toList

/-- The parts of a configuration. -/
def parts (options : Options) (version : String) (entries : List ModuleId) : List Bytes :=
  Bytes.littleEndian 4 formatVersion.toNat :: Bytes.ofText version :: Bytes.ofText options.canonical
    :: (entrySet entries).map fun entry => Bytes.ofText entry.text

/-- The fingerprint of a configuration. -/
def fingerprint (options : Options) (version : String) (entries : List ModuleId) : Digest :=
  Digest.ofParts (options.parts version entries)

end Recompile.Options
