/-
# Bare values of a TOML document

A value without quotes or brackets is a truth value, a number or a date and time. It goes as
far as the next mark between values, blanks between its words included, and it is read as a
whole.

## Main definitions

* `Toml.groupsDigits`: whether the underscores of a number stand between digits.
* `Toml.integer?`, `Toml.float?`: numbers, each with its value if it has one.
* `Toml.isDate`, `Toml.isTime`, `Toml.isDatetime`: dates and times.
* `Toml.scalar?`: any bare value at the beginning of a text.
-/

import SearchKeys.Toml.Digits
import SearchKeys.Toml.Value

namespace SearchKeys.Toml

/-! ### Numbers -/

/-- Whether every underscore stands between two digits, where `behindDigit` says whether the text
itself stands behind a digit. -/
def groupsFrom (isDigit : Char → Bool) (behindDigit : Bool) : List Char → Bool
  | [] => true
  | c :: rest =>
    if c = '_' then behindDigit && rest.head?.any isDigit && groupsFrom isDigit false rest
    else groupsFrom isDigit (isDigit c) rest

/-- Whether every underscore of a number stands between two digits. -/
def groupsDigits (isDigit : Char → Bool) (text : List Char) : Bool :=
  groupsFrom isDigit false text

/-- The digits of a number without the underscores between them. -/
def ungrouped (text : List Char) : List Char :=
  text.filter (· != '_')

/-- The sign in front of a number, if there is one, and the rest of the number. -/
def sign? : List Char → Option Char × List Char
  | '+' :: rest => (some '+', rest)
  | '-' :: rest => (some '-', rest)
  | text => (none, text)

/-- A magnitude with its sign. -/
def signed (sign : Option Char) (magnitude : Nat) : Int :=
  if sign = some '-' then -(magnitude : Int) else magnitude

/-- An integer, if 64 bits can represent it. -/
def inRange? (value : Int) : Option Int :=
  if -9223372036854775808 ≤ value ∧ value ≤ 9223372036854775807 then some value else none

/-- The number that digits of a base stand for. There must be some, and other characters make it
no number. -/
def magnitude? (base : Nat) (isDigit : Char → Bool) (digits : List Char) : Option Nat :=
  if !digits.isEmpty && digits.all isDigit then some (valueOf base digits) else none

/-- An integer behind the mark of its base: digits of the base, possibly none, and underscores
between them. -/
def basedInteger? (base : Nat) (isDigit : Char → Bool) (text : List Char) :
    Option (Option Int) :=
  if text.all (fun c => isDigit c || c == '_') && groupsDigits isDigit text then
    some ((magnitude? base isDigit (ungrouped text)).bind fun value => inRange? value)
  else none

/-- Whether a character makes a number one with a point or an exponent. -/
def isFloatMark (c : Char) : Bool :=
  c == '.' || c == 'e' || c == 'E'

/-- An integer in decimal digits. No zero comes first, except alone. Behind the first underscore
the digits are not examined closely: there every underscore must stand between two digits of the
base sixteen, and whatever else stands there, apart from a space, leaves the integer without a
value. -/
def decimalInteger? (text : List Char) : Option (Option Int) :=
  let (sign, text) := sign? text
  let behind := text.dropWhile Char.isDigit
  if text.isEmpty || (text.head? == some '0' && text.length != 1) then none
  else if (behind.isEmpty || behind.head? == some '_') &&
      !behind.any (fun c => isFloatMark c || c == ' ') && groupsDigits isHexDigit text then
    some ((magnitude? 10 Char.isDigit (ungrouped text)).bind fun value =>
      inRange? (signed sign value))
  else none

/-- An integer, in decimal digits with an optional sign or with a base of its own. -/
def integer? : List Char → Option (Option Int)
  | '0' :: 'x' :: rest => basedInteger? 16 isHexDigit rest
  | '0' :: 'o' :: rest => basedInteger? 8 (fun c => '0' ≤ c && c ≤ '7') rest
  | '0' :: 'b' :: rest => basedInteger? 2 (fun c => c == '0' || c == '1') rest
  | text => decimalInteger? text

/-- Reads decimal digits with underscores among them, at least one character. -/
def digitRun? (text : List Char) : Option (List Char × List Char) :=
  let isPart (c : Char) := c.isDigit || c == '_'
  if (text.takeWhile isPart).isEmpty then none
  else some (ungrouped (text.takeWhile isPart), text.dropWhile isPart)

/-- Reads the digits behind the point of a number; none are there without a point. -/
def fraction? : List Char → Option (List Char × List Char)
  | '.' :: rest => digitRun? rest
  | text => some ([], text)

/-- Reads the exponent behind the digits of a number; it is zero if there is none. -/
def exponent? : List Char → Option (Int × List Char)
  | [] => some (0, [])
  | c :: rest =>
    if c = 'e' ∨ c = 'E' then
      let (sign, digits) := sign? rest
      (digitRun? digits).map fun run => (signed sign (valueOf 10 run.1), run.2)
    else none

/-- A floating-point number in decimal digits, with a point or an exponent or both. No zero comes
first, except alone. Every underscore stands between two digits. -/
def decimalFloat? (sign : Option Char) (text : List Char) : Option Binary64 := do
  let (whole, rest) ← digitRun? text
  let leading := text.length - rest.length
  let (fraction, rest) ← fraction? rest
  let (exponent, rest) ← exponent? rest
  -- digits alone are an integer
  if text.any isFloatMark && rest.isEmpty && (leading == 1 || text.head? != some '0') &&
      groupsDigits Char.isDigit text then
    some (Binary64.nearest (sign == some '-') (valueOf 10 (whole ++ fraction))
      (exponent - fraction.length))
  else none

/-- A floating-point number. A decimal that is too large has no value, while an infinity may be
asked for by its name. -/
def float? (text : List Char) : Option (Option Binary64) :=
  let (sign, rest) := sign? text
  if rest = ['i', 'n', 'f'] then some (some (.infinite (sign == some '-')))
  else if rest = ['n', 'a', 'n'] then some (some .notANumber)
  else
    (decimalFloat? sign rest).map fun value =>
      match value with
      | .infinite _ => none
      | value => some value

/-! ### Dates and times -/

/-- Reads two digits as a number between the bounds. -/
def twoDigits? (least greatest : Nat) : List Char → Option (Nat × List Char)
  | tens :: ones :: rest =>
    let value := valueOf 10 [tens, ones]
    if tens.isDigit && ones.isDigit && least ≤ value && value ≤ greatest then some (value, rest)
    else none
  | _ => none

/-- The number of days of a month. -/
def daysOf (year month : Nat) : Nat :=
  if month = 2 then
    if year % 4 = 0 ∧ (year % 100 ≠ 0 ∨ year % 400 = 0) then 29 else 28
  else if month = 4 ∨ month = 6 ∨ month = 9 ∨ month = 11 then 30
  else 31

/-- Whether the text is a date: year, month and day with hyphens between them. -/
def isDate (text : List Char) : Bool :=
  let year := text.take 4
  match text.drop 4 with
  | '-' :: rest =>
    match twoDigits? 1 12 rest with
    | some (month, '-' :: rest) =>
      match twoDigits? 1 (daysOf (valueOf 10 year) month) rest with
      | some (_, []) => year.length == 4 && year.all Char.isDigit
      | _ => false
    | _ => false
  | _ => false

/-- Reads hours and minutes with a colon between them. -/
def hoursAndMinutes? (text : List Char) : Option (List Char) :=
  match twoDigits? 0 23 text with
  | some (_, ':' :: rest) => (twoDigits? 0 59 rest).map Prod.snd
  | _ => none

/-- Reads the seconds of a time, which may be left out and may have a fraction. A leap second
has the number sixty. -/
def seconds? : List Char → Option (List Char)
  | ':' :: rest =>
    match twoDigits? 0 60 rest with
    | some (_, '.' :: rest) =>
      if (rest.takeWhile Char.isDigit).isEmpty then none else some (rest.dropWhile Char.isDigit)
    | some (_, rest) => some rest
    | none => none
  | text => some text

/-- Reads a time. -/
def time? (text : List Char) : Option (List Char) :=
  (hoursAndMinutes? text).bind seconds?

/-- Whether the text is a time. -/
def isTime (text : List Char) : Bool :=
  time? text == some []

/-- Whether the text is a distance from universal time, or nothing at all. -/
def isOffset : List Char → Bool
  | [] | ['Z'] | ['z'] => true
  | '+' :: rest | '-' :: rest => hoursAndMinutes? rest == some []
  | _ => false

/-- Whether the text is a date, a time, or a date and a time with or without an offset. -/
def isDatetime (text : List Char) : Bool :=
  isTime text || isDate text ||
    (isDate (text.take 10) &&
      match text.drop 10 with
      | 'T' :: rest | 't' :: rest | ' ' :: rest => (time? rest).any isOffset
      | _ => false)

/-! ### Any bare value -/

/-- The characters of words: all but blanks, line ends and the marks between values. -/
def isScalarChar (c : Char) : Bool :=
  !(c == ' ' || c == '\t' || c == '\n' || c == '\r' || c == '#' || c == '=' || c == ',' ||
    c == '[' || c == ']' || c == '\x7b' || c == '\x7d')

/-- A bare value as a whole. -/
def Value.ofScalar? (text : List Char) : Option Value :=
  if text = ['t', 'r', 'u', 'e'] then some (.boolean true)
  else if text = ['f', 'a', 'l', 's', 'e'] then some (.boolean false)
  else if isDatetime text then some .datetime
  else (integer? text).map .integer <|> (float? text).map .float

/-- Reads on in a bare value after the characters `done` and the blanks behind them, both latest
first. -/
def scalarFrom (done blanks : List Char) : List Char → List Char
  | [] => done.reverse
  | c :: rest =>
    if c = ' ' ∨ c = '\t' then scalarFrom done (c :: blanks) rest
    else if isScalarChar c && (blanks.isEmpty || (c != '"' && c != '\'')) then
      scalarFrom (c :: blanks ++ done) [] rest
    else done.reverse

/-- The bare value that a text begins with: words with blanks between them. A quote begins no
further word. -/
def scalarText (text : List Char) : List Char :=
  scalarFrom [] [] text

/-- Reads a bare value. -/
def scalar? (text : List Char) : Option (Value × List Char) :=
  let run := scalarText text
  (Value.ofScalar? run).map fun value => (value, text.drop run.length)

end SearchKeys.Toml
