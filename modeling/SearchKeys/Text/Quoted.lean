/-
# Quoted text

A listing shows a string between double quotes. A quote, a backslash and the usual blanks
are written with a backslash, every other character that would not be seen is written by
its number, and the rest stands for itself.

## Main definitions

* `Text.quotedChar`: how one character is written.
* `Text.quoted`: a whole string between its quotes.
-/

import SearchKeys.Text.Hidden

namespace SearchKeys.Text

/-- The number of a character in lower-case hexadecimal between braces: `\u{301}`. -/
def numbered (c : Char) : List Char :=
  ['\\', 'u', '\x7b'] ++ Nat.toDigits 16 c.toNat ++ ['\x7d']

/-- How a character is written between double quotes. -/
def quotedChar (c : Char) : List Char :=
  if c = '\x00' then ['\\', '0']
  else if c = '\t' then ['\\', 't']
  else if c = '\r' then ['\\', 'r']
  else if c = '\n' then ['\\', 'n']
  else if c = '\\' then ['\\', '\\']
  else if c = '"' then ['\\', '"']
  else if c.toNat < 0x20 ∨ c.toNat = 0x7F ∨ isHidden c then numbered c
  else [c]

/-- The string between double quotes, its characters written by `quotedChar`. -/
def quoted (text : String) : String :=
  String.ofList ('"' :: text.toList.flatMap quotedChar ++ ['"'])

end SearchKeys.Text
