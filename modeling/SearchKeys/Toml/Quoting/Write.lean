/-
# Writing a TOML string

A string is written in the form that needs the fewest escapes. Between double quotes the
special characters are escaped; between single quotes nothing can be, so that form is taken
only where nothing needs to be.

## Main definitions

* `Toml.Quoting.suited`: the form a text is written in.
* `Toml.Quoting.escapedAfter`, `Toml.Quoting.write`: a text between double quotes, and in any form.
* `Toml.quoted`: a text as a string with its quotes.
-/

import SearchKeys.Toml.Quoting

namespace SearchKeys.Toml

/-- The controls that only an escape can stand for. A tab and a line feed are not among
them. -/
def isControl (c : Char) : Bool :=
  !isPlain c && c != '\n'

/-- The length of the longest run of a character, where `current` of it stand directly in
front. -/
def longestRun (c : Char) (current : Nat) : List Char → Nat
  | [] => current
  | first :: rest =>
    if first = c then longestRun c (current + 1) rest else max current (longestRun c 0 rest)

/-- Four hexadecimal digits in capitals. -/
def fourHexDigits (number : Nat) : List Char :=
  let digits := (Nat.toDigits 16 number).map Char.toUpper
  List.replicate (4 - digits.length) '0' ++ digits

namespace Quoting

/-- The form that a text is written in: a single line if it has no line end, and double quotes
unless they would need more escapes. -/
def suited (text : List Char) : Quoting :=
  let hasFeed := text.contains '\n'
  if text.any isControl then if hasFeed then multilineBasic else basic
  else if !text.contains '\\' && !text.contains '"' && !hasFeed then basic
  else if !text.contains '\'' && !hasFeed then literal
  else if !text.contains '\\' && longestRun '"' 0 text ≤ 2 then multilineBasic
  else if longestRun '\'' 0 text ≤ 2 then multilineLiteral
  else if hasFeed then multilineBasic
  else basic

/-- A character between double quotes, other than a quote. -/
def escapedChar (form : Quoting) (c : Char) : List Char :=
  if c = '\x08' then ['\\', 'b']
  else if c = '\t' then ['\\', 't']
  else if c = '\x0c' then ['\\', 'f']
  else if c = '\r' then ['\\', 'r']
  else if c = '\\' then ['\\', '\\']
  else if c = '\n' then if form.multiline then ['\n'] else ['\\', 'n']
  else if isControl c then '\\' :: 'u' :: fourHexDigits c.toNat
  else [c]

/-- A text between double quotes, where `run` quotes without an escape stand directly in front.
On a single line every quote is escaped, over several lines the third of a run. -/
def escapedAfter (form : Quoting) (run : Nat) : List Char → List Char
  | [] => []
  | c :: rest =>
    if c = '"' then
      -- three quotes in a row would close the string
      if form.multiline ∧ run < 2 then '"' :: escapedAfter form (run + 1) rest
      else '\\' :: '"' :: escapedAfter form 0 rest
    else escapedChar form c ++ escapedAfter form 0 rest

/-- A text as it is written inside of the quotes of a form. -/
def body (form : Quoting) (text : List Char) : List Char :=
  if form.escapes then escapedAfter form 0 text else text

/-- A text in a form, with its quotes. Behind the quotes of a multi-line form a text with a line
end begins on a new line. -/
def write (form : Quoting) (text : List Char) : List Char :=
  let feed := if form.multiline && text.contains '\n' then ['\n'] else []
  form.delimiter ++ feed ++ form.body text ++ form.delimiter

end Quoting

/-- A text as a TOML string. -/
def quoted (text : String) : String :=
  String.ofList ((Quoting.suited text.toList).write text.toList)

end SearchKeys.Toml
