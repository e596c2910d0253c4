import Recompile.Disk.Path
import Recompile.Json.Shape
import Recompile.Toml.Basic

/-!
# Options

What a project can say about its builds: whether modules are checked, where results are kept, which
modules are selected, what is reported, and the options of the compiler, which nothing here looks
into.  Every option has a default, so nothing has to be said.
-/

namespace Recompile

/-- How much is reported. -/
inductive Verbosity where
  /-- Errors only. -/
  | error
  /-- Warnings, too. -/
  | warning
  /-- Remarks and proposals, too. -/
  | info
  /-- Everything. -/
  | debug
deriving DecidableEq, Inhabited

namespace Verbosity

/-- All of them, the quietest first. -/
def all : List Verbosity := [error, warning, info, debug]

/-- The place among all of them. -/
def rank : Verbosity → Nat
  | error => 0
  | warning => 1
  | info => 2
  | debug => 3

/-- The name, as options give it. -/
def name : Verbosity → String
  | error => "error"
  | warning => "warning"
  | info => "info"
  | debug => "debug"

instance : Ord Verbosity := ⟨compareOn rank⟩

instance : JsonShape Verbosity := ⟨fun v => .text v.name, JsonShape.named? all name⟩

end Verbosity

/-- The options of a project. -/
structure Options where
  /-- Whether modules are checked and findings reported. -/
  check : Bool := true
  /-- Whether results kept from earlier are thrown away at the start. -/
  clean : Bool := false
  /-- The directory for results. -/
  cacheRoot : Path := ⟨".tsforge_cache"⟩
  /-- Whether a failed emission ends the build. -/
  abortOnError : Bool := true
  /-- How much is reported. -/
  verbosity : Verbosity := .warning
  /-- The patterns of the modules that are selected. -/
  selected : List String := ["**/*.ts", "**/*.tsx"]
  /-- The patterns of the modules that are not, although others select them. -/
  excluded : List String := ["**/*.d.ts"]
  /-- Whether declarations go where the compiler puts them. -/
  declarationsInPlace : Bool := false
  /-- The options of the compiler, with keys in order. -/
  compiler : Toml.Table := []

instance : Inhabited Options := ⟨{}⟩

end Recompile
