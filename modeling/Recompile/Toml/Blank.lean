import Recompile.Toml.Basic

/-!
# What stands between the parts of a document

Blanks are spaces and tabs.  A line ends with a line feed, which a carriage return may precede, or
with the document; before its end it may have a comment.
-/

namespace Recompile.Toml

/-- The document without the spaces and tabs in front. -/
def skipSpace (cs : List Char) : List Char :=
  cs.dropWhile fun c => c = ' ' || c = '\t'

/-- Whether a character may stand in comments and, unless it has a meaning there, in strings. -/
def isPlain (c : Char) : Bool :=
  c = '\t' || (0x20 ≤ c.toNat && c.toNat ≠ 0x7F)

/-- The document after the end of a line, if one is there. -/
def lineBreak? : List Char → Option (List Char)
  | '\n' :: rest => some rest
  | '\r' :: '\n' :: rest => some rest
  | _ => none

/-- The document without the blanks, line ends and comments in front; the truth value says whether
it starts within a comment. -/
def skipLines : Bool → List Char → Option (List Char)
  | _, [] => some []
  | _, '\n' :: rest => skipLines false rest
  | _, '\r' :: '\n' :: rest => skipLines false rest
  | true, c :: rest => if isPlain c then skipLines true rest else none
  | false, '#' :: rest => skipLines true rest
  | false, c :: rest => if c = ' ' ∨ c = '\t' then skipLines false rest else some (c :: rest)

/-- The document after the rest of a line, in which nothing but a comment may stand. -/
def endLine (cs : List Char) : Option (List Char) :=
  match skipSpace cs with
  | [] => some []
  | '#' :: rest =>
    match rest.dropWhile isPlain with
    | [] => some []
    | rest => lineBreak? rest
  | rest => lineBreak? rest

end Recompile.Toml
