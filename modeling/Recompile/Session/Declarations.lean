import Recompile.Session.Basic

/-!
# Writing declarations

Declarations are written where the compiler puts them, or, if there is a bundle, next to the bundle:
under its directory, at the place they have relative to the output directory of the compiler, or
else under their own name (`Declaration.target`).
-/

namespace Recompile

namespace Declaration

/-- The path of a declaration relative to the output directory, or else its file name. -/
def relative (name outDirectory : Path) : Path :=
  match name.stripBase? outDirectory with
  | some rest => rest
  | none =>
    match name.fileName? with
    | some file => ⟨file⟩
    | none => name

/-- Where a declaration is written. -/
def target (name : Path) (bundle : Option Path) (outDirectory : Path) : Path :=
  match bundle with
  | none => name
  | some bundle => (bundle.parent?.getD ⟨""⟩).join (relative name outDirectory)

/-- The mark at the start of a text that says how its bytes are ordered. -/
def byteOrderMark : String := "\uFEFF"

/-- What is written. -/
def content (declaration : Declaration) : Bytes :=
  Bytes.ofText (if declaration.writeMark then byteOrderMark ++ declaration.text
    else declaration.text)

/-- Writes a declaration; directories that are missing are made. -/
def write (declaration : Declaration) (target : Path) (disk : Disk) :
    Except Disk.Fault Unit × Disk :=
  let (made, disk) := match target.parent? with
    | some parent => disk.makeDirectories parent
    | none => (.ok (), disk)
  match made with
  | .error fault => (.error fault, disk)
  | .ok () =>
    match disk.write target declaration.content with
    | .error fault => (.error fault, disk)
    | .ok disk => (.ok (), disk)

/-- Writes declarations one after the other, up to the first failure. -/
def writeAll (bundle : Option Path) (outDirectory : Path) :
    List Declaration → Disk → Except SessionError Unit × Disk
  | [], disk => (.ok (), disk)
  | declaration :: rest, disk =>
    let path := target ⟨declaration.path⟩ bundle outDirectory
    match declaration.write path disk with
    | (.error fault, disk) => (.error (.declaration path fault), disk)
    | (.ok (), disk) => writeAll bundle outDirectory rest disk

end Declaration

/-- Writes the declarations of a session in the order of their paths, and counts them.  The options
may say that they stay where the compiler puts them. -/
def Session.writeDeclarations (session : Session) (disk : Disk) (bundle : Option Path)
    (outDirectory : Path) : Except SessionError Nat × Disk :=
  let bundle := if session.options.declarationsInPlace then none else bundle
  let declarations := session.declarations.values
  match Declaration.writeAll bundle outDirectory declarations disk with
  | (.error error, disk) => (.error error, disk)
  | (.ok (), disk) => (.ok declarations.length, disk)

end Recompile
