/-
# Reading a TOML string

A string is read piece by piece: an escape, a line end, or a character that stands for
itself. A multi-line string may end in one or two quotes of its own, which stand directly in
front of the closing ones.

## Main definitions

* `Toml.Quoting.ending?`: the closing quotes, with the quotes in front that belong to the text.
* `Toml.Quoting.piece?`: one piece of a string.
* `Toml.Quoting.read?`: a whole string with its quotes.

## Main results

* `Toml.Quoting.piece?_shorter`: a piece takes up at least one character.
-/

import SearchKeys.Toml.Digits
import SearchKeys.Toml.Quoting

namespace SearchKeys.Toml

/-- Reads a character by its number in `count` hexadecimal digits. -/
def numberedChar? (count : Nat) (text : List Char) : Option (Char × List Char) :=
  let digits := text.take count
  let number := valueOf 16 digits
  if digits.length = count ∧ digits.all isHexDigit ∧ number.isValidChar then
    some (Char.ofNat number, text.drop count)
  else none

/-- What follows the backslash of an escape: the character meant, and the text after it. -/
def escaped? : List Char → Option (Char × List Char)
  | 'b' :: rest => some ('\x08', rest)
  | 't' :: rest => some ('\t', rest)
  | 'n' :: rest => some ('\n', rest)
  | 'f' :: rest => some ('\x0c', rest)
  | 'r' :: rest => some ('\r', rest)
  | 'e' :: rest => some ('\x1b', rest)
  | '"' :: rest => some ('"', rest)
  | '\\' :: rest => some ('\\', rest)
  | 'x' :: rest => numberedChar? 2 rest
  | 'u' :: rest => numberedChar? 4 rest
  | 'U' :: rest => numberedChar? 8 rest
  | _ => none

/-- Reading a numbered character leaves no more text than there was. -/
theorem numberedChar?_length {count : Nat} {text rest : List Char} {char : Char}
    (read : numberedChar? count text = some (char, rest)) : rest.length ≤ text.length := by
  simp only [numberedChar?] at read
  split at read
  · simp only [Option.some.injEq, Prod.mk.injEq] at read
    rw [← read.2, List.length_drop]
    exact Nat.sub_le _ _
  · cases read

/-- An escape takes up at least one character behind its backslash. -/
theorem escaped?_shorter {text rest : List Char} {char : Char}
    (read : escaped? text = some (char, rest)) : rest.length < text.length := by
  unfold escaped? at read
  split at read <;> first
    | (simp only [Option.some.injEq, Prod.mk.injEq] at read
       obtain ⟨_, rfl⟩ := read
       simp)
    | exact Nat.lt_succ_of_le (numberedChar?_length read)
    | cases read

/-- Skips spaces and tabs. -/
def skipBlanks (text : List Char) : List Char :=
  text.dropWhile fun c => c == ' ' || c == '\t'

/-- Reads a line end: a line feed, with or without a carriage return in front. -/
def lineEnd? : List Char → Option (List Char × List Char)
  | '\n' :: rest => some (['\n'], rest)
  | '\r' :: '\n' :: rest => some (['\r', '\n'], rest)
  | _ => none

/-- Skips spaces, tabs and line ends. -/
def skipSpace : List Char → List Char
  | ' ' :: rest | '\t' :: rest | '\n' :: rest | '\r' :: '\n' :: rest => skipSpace rest
  | text => text

/-- Skipping space leaves no more text than there was. -/
theorem skipSpace_length (text : List Char) : (skipSpace text).length ≤ text.length := by
  fun_induction skipSpace text <;> simp_all <;> omega

/-- Skipping blanks leaves no more text than there was. -/
theorem skipBlanks_length (text : List Char) : (skipBlanks text).length ≤ text.length :=
  (List.dropWhile_suffix _).length_le

/-- A line end takes up at least one character. -/
theorem lineEnd?_shorter {text feed rest : List Char}
    (read : lineEnd? text = some (feed, rest)) : rest.length < text.length := by
  unfold lineEnd? at read
  split at read <;> simp only [Option.some.injEq, Prod.mk.injEq, reduceCtorEq] at read
  all_goals
    obtain ⟨_, rfl⟩ := read
    simp only [List.length_cons]
    omega

namespace Quoting

/-- The closing quotes of a string, with the quotes that belong to the text in front of them,
and the text after them. -/
def ending? (form : Quoting) (text : List Char) : Option (List Char × List Char) :=
  let run := text.takeWhile (· == form.quote)
  if form.multiline then
    if run.length < 3 then none
    else
      -- at most two quotes in front of the closing three are the text's own
      let own := min (run.length - 3) 2
      some (List.replicate own form.quote, text.drop (own + 3))
  else if run.isEmpty then none
  else some ([], text.drop 1)

/-- One piece of a string: the characters it means and the text after it. A backslash at the
end of a line means nothing and takes the space behind it along. -/
def piece? (form : Quoting) : List Char → Option (List Char × List Char)
  | [] => none
  | c :: rest =>
    if c = '\\' ∧ form.escapes then
      match escaped? rest with
      | some (char, after) => some ([char], after)
      | none =>
        if form.multiline then (lineEnd? (skipBlanks rest)).map fun line => ([], skipSpace line.2)
        else none
    else if isPlain c then some ([c], rest)
    else if form.multiline then lineEnd? (c :: rest)
    else none

/-- A piece takes up at least one character. -/
theorem piece?_shorter {form : Quoting} {text meaning rest : List Char}
    (read : form.piece? text = some (meaning, rest)) : rest.length < text.length := by
  cases text with
  | nil => cases read
  | cons c text =>
    simp only [piece?] at read
    split at read
    · split at read
      · rename_i escape
        simp only [Option.some.injEq, Prod.mk.injEq] at read
        have := escaped?_shorter escape
        rw [← read.2, List.length_cons]
        omega
      · split at read
        · obtain ⟨line, feed, read⟩ := Option.map_eq_some_iff.mp read
          simp only [Prod.mk.injEq] at read
          have := lineEnd?_shorter feed
          have := skipBlanks_length text
          have := skipSpace_length line.2
          rw [← read.2, List.length_cons]
          omega
        · cases read
    · split at read
      · simp only [Option.some.injEq, Prod.mk.injEq] at read
        rw [← read.2]
        simp
      · split at read
        · exact lineEnd?_shorter read
        · cases read

/-- Reads the rest of a string up to its end. The characters read are kept latest first. -/
def readFrom? (form : Quoting) (done text : List Char) : Option (String × List Char) :=
  match form.ending? text with
  | some (own, rest) => some (String.ofList (done.reverse ++ own), rest)
  | none =>
    match read : form.piece? text with
    | none => none
    | some (meaning, rest) =>
      have := piece?_shorter read
      readFrom? form (meaning.reverse ++ done) rest
termination_by text.length

/-- The text after the opening quotes; a line end directly behind them does not belong to a
multi-line string. -/
def afterOpening (form : Quoting) (text : List Char) : List Char :=
  match form.multiline, lineEnd? text with
  | true, some (_, rest) => rest
  | _, _ => text

/-- Reads a string of the form, with its quotes. -/
def read? (form : Quoting) (text : List Char) : Option (String × List Char) :=
  if form.delimiter.isPrefixOf text then
    form.readFrom? [] (form.afterOpening (text.drop form.delimiter.length))
  else none

end Quoting

/-- Reads a string in the form its quotes tell: three of them open a multi-line string. -/
def string? (text : List Char) : Option (String × List Char) :=
  let forms := [Quoting.multilineBasic, .multilineLiteral, .basic, .literal]
  (forms.find? fun form => form.delimiter.isPrefixOf text).bind fun form => form.read? text

end SearchKeys.Toml
