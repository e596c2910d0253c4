/-!
# Paths

A path is a text whose pieces are separated by slashes.  What a path means is the list of its steps
(`Path.steps`): empty pieces and single dots are no steps, except for a dot at the very start.
Operations keep the text of the pieces they do not touch, because messages and answers show it.
-/

namespace Recompile

/-- A path, as it is written. -/
structure Path where
  /-- The text. -/
  text : String
deriving DecidableEq, Inhabited

namespace Path

/-- What one piece of a path tells to do. -/
inductive Step where
  /-- Start at the root. -/
  | root
  /-- Stay, written at the start. -/
  | here
  /-- Go to the parent. -/
  | up
  /-- Go to the entry of that name. -/
  | name (text : String)
deriving DecidableEq

/-- Whether the path starts at the root. -/
def isAbsolute (path : Path) : Bool :=
  path.text.toList.head? = some '/'

/-- The pieces between slashes; the slash that makes a path absolute separates nothing. -/
def pieces (path : Path) : List String :=
  let cs := path.text.toList
  ((if path.isAbsolute then cs.tail else cs).splitOn '/').map String.ofList

/-- Whether a piece is no step when others stand before it. -/
def isIdle (piece : String) : Bool :=
  piece = "" || piece = "."

/-- The step of a piece that is not idle. -/
def stepOf (piece : String) : Step :=
  if piece = ".." then .up else .name piece

/-- The steps of a path. -/
def steps (path : Path) : List Step :=
  let rest := (path.pieces.filter fun piece => !isIdle piece).map stepOf
  if path.isAbsolute then .root :: rest
  else if path.pieces.head? = some "." then .here :: rest
  else rest

/-- The pieces, with slashes between them. -/
def glue (pieces : List String) : String :=
  String.ofList (['/'].intercalate (pieces.map String.toList))

/-- The pieces without idle ones at the end. -/
def trimEnd (pieces : List String) : List String :=
  (pieces.reverse.dropWhile isIdle).reverse

/-- One path after another; an absolute path stands for itself. -/
def join (base path : Path) : Path :=
  if path.isAbsolute || base.text.isEmpty then path
  else if base.text.toList.getLast? = some '/' then ⟨base.text ++ path.text⟩
  else ⟨base.text ++ "/" ++ path.text⟩

/-- The path without its last step; a path without a step, or with the root alone, has none. -/
def parent? (path : Path) : Option Path :=
  if path.isAbsolute then
    match trimEnd path.pieces with
    | [] => none
    | pieces => some ⟨"/" ++ glue (trimEnd pieces.dropLast)⟩
  else
    match path.pieces with
    | [] => none
    | first :: rest =>
      match trimEnd rest with
      | [] => if first = "" then none else some ⟨""⟩
      | pieces => some ⟨glue (first :: trimEnd pieces.dropLast)⟩

/-- The name that the last step goes to. -/
def fileName? (path : Path) : Option String :=
  match path.steps.getLast? with
  | some (.name text) => some text
  | _ => none

/-- The text without idle pieces at its end. -/
def trimmed (path : Path) : Path :=
  if path.isAbsolute then ⟨"/" ++ glue (trimEnd path.pieces)⟩
  else
    match path.pieces with
    | [] => path
    | first :: rest => ⟨glue (first :: trimEnd rest)⟩

/-- What is left of the pieces after so many of them that are not idle. -/
def dropSteps : Nat → List String → List String
  | _, [] => []
  | 0, piece :: rest => if isIdle piece then dropSteps 0 rest else piece :: rest
  | count + 1, piece :: rest =>
    if isIdle piece then dropSteps (count + 1) rest else dropSteps count rest

/-- The path relative to a base whose steps it starts with. -/
def stripBase? (path base : Path) : Option Path :=
  if base.steps.isPrefixOf path.steps then
    match base.steps with
    | [] => some path.trimmed
    | first :: rest =>
      let count := if first = .root ∨ first = .here then rest.length else rest.length + 1
      some ⟨glue (trimEnd (dropSteps count path.pieces))⟩
  else none

/-- The place of the last dot of a name, unless it is the first character. -/
def splitName (name : String) : String × Option String :=
  let cs := name.toList.reverse
  match cs.dropWhile (· ≠ '.') with
  | [] => (name, none)
  | _ :: stem =>
    if stem.isEmpty then (name, none)
    else (String.ofList stem.reverse, some (String.ofList (cs.takeWhile (· ≠ '.')).reverse))

/-- The name of an entry up to its last dot. -/
def stem (name : String) : String :=
  (splitName name).1

/-- What follows the last dot of the name of an entry. -/
def extension? (name : String) : Option String :=
  (splitName name).2

instance : ToString Path := ⟨text⟩

end Path

end Recompile
