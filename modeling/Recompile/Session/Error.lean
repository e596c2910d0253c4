import Recompile.Options.Document
import Recompile.Selection

/-!
# What ends a build

Trouble with stored results never ends a build; it only makes results be computed again.
-/

namespace Recompile

/-- Why a build ends. -/
inductive SessionError where
  /-- A module could not be compiled, and the options say that this ends the build. -/
  | emission (id : ModuleId)
  /-- There are no options. -/
  | options (error : OptionsError)
  /-- The options have a text that is no file pattern. -/
  | pattern (error : PatternError)
  /-- A declaration could not be written. -/
  | declaration (path : Path) (fault : Disk.Fault)
deriving DecidableEq

/-- The text of an error. -/
def SessionError.message : SessionError → String
  | emission id => "failed to transpile '" ++ id.text ++ "'"
  | options error => error.message
  | pattern error => "invalid file pattern '" ++ error.pattern ++ "': " ++ error.reason
  | declaration path fault => "failed to write declaration " ++ path.text ++ ": " ++ fault.text

end Recompile
