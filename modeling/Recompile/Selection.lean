import Recompile.Glob.Reader
import Recompile.ModuleId
import Recompile.Options.Basic

/-!
# Selections of modules

A selection says which modules a session handles: those that match one of its patterns and none of
the patterns that exclude.  Identifiers that start with a NUL character belong to the host and are
never selected.
-/

namespace Recompile

/-- A text that should be a file pattern and is none. -/
structure PatternError where
  /-- The text. -/
  pattern : String
  /-- What is wrong with it. -/
  reason : String
deriving DecidableEq

/-- Which modules a session handles. -/
structure Selection where
  /-- The patterns of which one has to match. -/
  selected : List Glob
  /-- The patterns of which none may match. -/
  excluded : List Glob

namespace Selection

/-- The pattern that a text gives. -/
def patternOf (text : String) : Except PatternError Glob :=
  match Glob.ofText text with
  | .ok glob => .ok glob
  | .error fault => .error ⟨text, "error parsing glob '" ++ text ++ "': " ++ fault.text⟩

/-- The selection that patterns give; the first faulty one is reported. -/
def ofPatterns (selected excluded : List String) : Except PatternError Selection := do
  let selected ← selected.mapM patternOf
  let excluded ← excluded.mapM patternOf
  return { selected, excluded }

/-- The selection that options give. -/
def ofOptions (options : Options) : Except PatternError Selection :=
  ofPatterns options.selected options.excluded

/-- Whether an identifier belongs to the host. -/
def isVirtual (id : ModuleId) : Bool :=
  id.text.toList.head? = some '\x00'

/-- Whether a module is selected. -/
def accepts (selection : Selection) (id : ModuleId) : Bool :=
  !isVirtual id && selection.selected.any (·.accepts id.text)
    && !selection.excluded.any (·.accepts id.text)

end Selection

end Recompile
