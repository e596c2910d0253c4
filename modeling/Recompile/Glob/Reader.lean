import Recompile.Glob.Basic

/-!
# Reading file patterns

A pattern is read character by character.  Groups may be nested; each open group keeps what stands
before it and its branches so far.  A backslash makes the next character stand for itself, except
within a class.
-/

namespace Recompile.Glob

/-- Why a text is no pattern. -/
inductive Fault where
  /-- A class is not closed. -/
  | unclosedClass
  /-- The ends of a range are in the wrong order. -/
  | invalidRange (first last : Char)
  /-- A group is closed that was not opened. -/
  | unopenedGroup
  /-- A group is not closed. -/
  | unclosedGroup
  /-- Nothing follows a backslash. -/
  | danglingEscape
deriving DecidableEq

/-- The text of a fault. -/
def Fault.text : Fault → String
  | unclosedClass => "unclosed character class; missing ']'"
  | invalidRange first last =>
    "invalid range; '" ++ String.singleton first ++ "' > '" ++ String.singleton last ++ "'"
  | unopenedGroup =>
    "unopened alternate group; missing '\x7b' (maybe escape '\x7d' with '[\x7d]'?)"
  | unclosedGroup =>
    "unclosed alternate group; missing '\x7d' (maybe escape '\x7b' with '[\x7b]'?)"
  | danglingEscape => "dangling '\\'"

/-- A group that is open. -/
structure OpenGroup where
  /-- The tokens before the group, the last one first. -/
  before : List Token
  /-- The finished branches, the last one first. -/
  branches : List (List Token)

/-- What was read of a pattern. -/
structure Progress where
  /-- The open groups, the innermost first. -/
  groups : List OpenGroup
  /-- The tokens of the branch that is being read, the last one first. -/
  tokens : List Token

namespace Progress

/-- With one more token. -/
def push (progress : Progress) (token : Token) : Progress :=
  { progress with tokens := token :: progress.tokens }

/-- With a group opened. -/
def openGroup (progress : Progress) : Progress :=
  ⟨⟨progress.tokens, []⟩ :: progress.groups, []⟩

/-- With the next branch begun; outside of groups a comma stands for itself. -/
def comma (progress : Progress) : Progress :=
  match progress.groups with
  | [] => progress.push (.char ',')
  | group :: groups =>
    ⟨{ group with branches := progress.tokens.reverse :: group.branches } :: groups, []⟩

/-- With the innermost group closed. -/
def closeGroup? (progress : Progress) : Option Progress :=
  match progress.groups with
  | [] => none
  | group :: groups =>
    let branches := (progress.tokens.reverse :: group.branches).reverse
    some ⟨groups, .group branches :: group.before⟩

/-- With two stars that mean no more than one. -/
def twoStars (progress : Progress) : Progress :=
  (progress.push .many).push .many

/-- Whether two stars may be a component of their own, as far as what stands before them goes: a
slash, or in a group the start of a branch. -/
def mayCross (progress : Progress) (previous : Option Char) : Bool :=
  previous = some '/'
    || (!progress.groups.isEmpty && (previous = some ',' || previous = some '\x7b'))

/-- Whether a branch, or the pattern, ends where `rest` begins. -/
def endsBranch (progress : Progress) (rest : List Char) : Bool :=
  match rest with
  | [] => true
  | c :: _ => !progress.groups.isEmpty && (c = ',' || c = '\x7d')

/-- With a token for two stars in place of the separator before them.  Stars that follow such a
token add nothing to it. -/
def cross (progress : Progress) (token : Token) : Progress :=
  match progress.tokens with
  | .leading :: _ => progress
  | .beneath :: _ => progress
  | _ :: tokens => { progress with tokens := token :: tokens }
  | [] => progress.push token

end Progress

/-- What was read of a class. -/
structure ClassProgress where
  /-- Whether the class is negated. -/
  negated : Bool
  /-- Whether a dash was read that may belong to a range. -/
  inRange : Bool
  /-- The ranges, the last one first. -/
  ranges : List (Char × Char)

namespace ClassProgress

/-- With a character: the end of a range, or a range of its own. -/
def push (progress : ClassProgress) (c : Char) : Except Fault ClassProgress :=
  match progress.inRange, progress.ranges with
  | true, (first, _) :: ranges =>
    if c < first then .error (.invalidRange first c)
    else .ok { progress with inRange := false, ranges := (first, c) :: ranges }
  | _, ranges => .ok { progress with inRange := false, ranges := (c, c) :: ranges }

/-- The class, when it is closed; a dash at its end stands for itself. -/
def token (progress : ClassProgress) : Token :=
  let ranges := if progress.inRange then ('-', '-') :: progress.ranges else progress.ranges
  .oneOf progress.negated ranges.reverse

end ClassProgress

mutual

/-- Reads what is left of a pattern after a character. -/
def readTokens (progress : Progress) (previous : Option Char) :
    List Char → Except Fault (List Token)
  | [] => if progress.groups.isEmpty then .ok progress.tokens.reverse else .error .unclosedGroup
  | '?' :: rest => readTokens (progress.push .one) (some '?') rest
  | '*' :: '*' :: '/' :: rest =>
    if progress.tokens.isEmpty then readTokens (progress.push .leading) (some '/') rest
    else if progress.mayCross previous then readTokens (progress.cross .between) (some '/') rest
    else readTokens (progress.twoStars.push (.char '/')) (some '/') rest
  | '*' :: '*' :: rest =>
    if progress.tokens.isEmpty then
      readTokens (if rest.isEmpty then progress.push .leading else progress.twoStars) (some '*')
        rest
    else if progress.mayCross previous && progress.endsBranch rest then
      readTokens (progress.cross .beneath) (some '*') rest
    else readTokens progress.twoStars (some '*') rest
  | '*' :: rest => readTokens (progress.push .many) (some '*') rest
  | '[' :: '!' :: rest => readClassStart progress true rest
  | '[' :: '^' :: rest => readClassStart progress true rest
  | '[' :: rest => readClassStart progress false rest
  | '\x7b' :: rest => readTokens progress.openGroup (some '\x7b') rest
  | '\x7d' :: rest =>
    match progress.closeGroup? with
    | some progress => readTokens progress (some '\x7d') rest
    | none => .error .unopenedGroup
  | ',' :: rest => readTokens progress.comma (some ',') rest
  | '\\' :: [] => .error .danglingEscape
  | '\\' :: c :: rest => readTokens (progress.push (.char c)) (some c) rest
  | c :: rest => readTokens (progress.push (.char c)) (some c) rest

/-- Reads the first character of a class, which is in it whatever it is. -/
def readClassStart (progress : Progress) (negated : Bool) :
    List Char → Except Fault (List Token)
  | [] => .error .unclosedClass
  | c :: rest => readClass progress ⟨negated, false, [(c, c)]⟩ rest

/-- Reads what is left of a class. -/
def readClass (progress : Progress) (read : ClassProgress) : List Char → Except Fault (List Token)
  | [] => .error .unclosedClass
  | ']' :: rest => readTokens (progress.push read.token) (some ']') rest
  | c :: rest =>
    if c = '-' ∧ !read.inRange then readClass progress { read with inRange := true } rest
    else
      match read.push c with
      | .ok read => readClass progress read rest
      | .error fault => .error fault

end

/-- The pattern that a text gives. -/
def ofText (text : String) : Except Fault Glob :=
  (readTokens ⟨[], []⟩ none text.toList).map Glob.mk

end Recompile.Glob
