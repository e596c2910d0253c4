import Recompile.Text.Blank

/-!
# Quoted text for messages

A text is shown to people between double quotes, with a backslash before quotes and backslashes,
short escapes for the common controls, and code points in braces for other controls and for white
space that cannot be told from a plain space.
-/

namespace Recompile.Text

/-- A code point in lower-case hexadecimal, in braces. -/
def codePointEscape (c : Char) : List Char :=
  '\\' :: 'u' :: '\x7b' :: Nat.toDigits 16 c.toNat ++ ['\x7d']

/-- One character as it stands in quoted text. -/
def quotedChar (c : Char) : List Char :=
  if c = '\x00' then ['\\', '0']
  else if c = '\t' then ['\\', 't']
  else if c = '\n' then ['\\', 'n']
  else if c = '\r' then ['\\', 'r']
  else if c = '"' then ['\\', '"']
  else if c = '\\' then ['\\', '\\']
  else if c.toNat < 0x20 || c.toNat = 0x7F then codePointEscape c
  else if c.toNat ≥ 0x80 && (isBlank c || c.toNat < 0xA0) then codePointEscape c
  else [c]

/-- A text between double quotes. -/
def quoted (text : String) : String :=
  String.ofList ('"' :: text.toList.flatMap quotedChar ++ ['"'])

end Recompile.Text
