/-
# Reading a TOML document

A document is a sequence of statements: a key with its value, the header of a table, or the
header of a new item of an array of tables. Each statement stands on a line of its own, and
blanks, empty lines and comments may stand between them.

Brackets and braces nest to a limited depth, and a key has a limited number of names.

## Main definitions

* `Toml.skipTrivia`: skips blanks, line ends and comments.
* `Toml.key?`, `Toml.value?`: keys and values.
* `Toml.Statement`, `Toml.statements?`: the statements of a document.
* `Toml.document?`: the root table of a document.
-/

import SearchKeys.Toml.Quoting.Read
import SearchKeys.Toml.Scalar
import SearchKeys.Toml.Table

namespace SearchKeys.Toml

/-- A reader finds something at the beginning of a text and returns it with the text after
it. -/
abbrev Reader (α : Type) := List Char → Option (α × List Char)

/-! ### Between the statements -/

/-- Skips blanks, line ends and comments. -/
def skipTrivia : List Char → List Char
  | ' ' :: rest | '\t' :: rest | '\n' :: rest | '\r' :: '\n' :: rest => skipTrivia rest
  | '#' :: rest => skipTrivia (rest.dropWhile isPlain)
  | text => text
termination_by text => text.length
decreasing_by
  all_goals simp only [List.length_cons]
  any_goals omega
  have := (List.dropWhile_suffix isPlain (l := rest)).length_le
  omega

/-- What is left behind a statement: nothing, or a text that begins with a line end. Blanks and
a comment may stand in front. -/
def statementEnd? (text : List Char) : Option (List Char) :=
  let rest :=
    match skipBlanks text with
    | '#' :: comment => comment.dropWhile isPlain
    | rest => rest
  if rest.isEmpty || (lineEnd? rest).isSome then some rest else none

/-- What stands behind a character at the beginning of a text. -/
def behind? (c : Char) : List Char → Option (List Char)
  | first :: rest => if first = c then some rest else none
  | [] => none

/-- How deep brackets and braces may nest, and how many names a key may have. -/
def maxNesting : Nat := 80

/-! ### Keys -/

/-- The characters of keys without quotes. -/
def isBareKeyChar (c : Char) : Bool :=
  c.isAlphanum || c == '_' || c == '-'

/-- A part of a key, with or without quotes. -/
def keyPart? : Reader String := fun text =>
  let bare := text.takeWhile isBareKeyChar
  if bare.isEmpty then Quoting.basic.read? text <|> Quoting.literal.read? text
  else some (String.ofList bare, text.drop bare.length)

/-- Reads the parts of a key, with points between them and blanks around each. -/
def keyParts? (done : List String) (text : List Char) : Option (List String × List Char) :=
  match keyPart? (skipBlanks text) with
  | none => none
  | some (part, rest) =>
    match behind? '.' (skipBlanks rest) with
    | none => some ((part :: done).reverse, rest)
    | some after => if after.length < text.length then keyParts? (part :: done) after else none
termination_by text.length

/-- A key. Its parts stand on one line. -/
def key? : Reader Key := fun text => do
  let (parts, rest) ← keyParts? [] text
  let key ← Key.ofParts? parts
  if parts.length ≤ maxNesting then some (key, rest) else none

/-! ### Values -/

/-- Reads items with commas between them, and possibly one behind the last, up to a closing
bracket. Blanks, line ends and comments may stand between all of these. -/
def items? {α : Type} (closing : Char) (item : Reader α) (done : List α) (text : List Char) :
    Option (List α × List Char) :=
  match skipTrivia text with
  | [] => none
  | c :: rest =>
    if c = closing then some (done.reverse, rest)
    else
      match item (c :: rest) with
      | none => none
      | some (value, rest) =>
        match skipTrivia rest with
        | ',' :: rest =>
          if rest.length < text.length then items? closing item (value :: done) rest else none
        | c :: rest => if c = closing then some ((value :: done).reverse, rest) else none
        | [] => none
termination_by text.length

/-- A key and its value, with an equals sign between them. What may stand on either side of the
sign depends on the place of the pair. -/
def pair? (skip : List Char → List Char) (value : Reader Value) : Reader (Key × Value) :=
  fun text => do
    let (key, rest) ← key? text
    let rest ← behind? '=' (skip rest)
    let (value, rest) ← value (skip rest)
    some ((key, value), rest)

/-- A value that is no array and no table. -/
def simpleValue? : Reader Value := fun text =>
  match string? text with
  | some (string, rest) => some (.string string, rest)
  | none => scalar? text

/-- A value in which brackets and braces nest to the given depth. -/
def value? : Nat → Reader Value
  | 0, text => simpleValue? text
  | depth + 1, text =>
    match text with
    | '[' :: rest => do
      let (values, rest) ← items? ']' (value? depth) [] rest
      some (.array false values, rest)
    | '{' :: rest => do
      -- between braces a pair may go over several lines
      let (pairs, rest) ← items? '}' (pair? skipTrivia (value? depth)) [] rest
      let entries ← Entries.ofPairs? pairs
      some (.table .braces entries, rest)
    | text => simpleValue? text

/-! ### Statements -/

/-- A statement of a document. -/
inductive Statement
  /-- A key and its value. -/
  | pair (key : Key) (value : Value)
  /-- The header of a table. -/
  | header (key : Key)
  /-- The header of a new item of an array of tables. -/
  | item (key : Key)
  deriving Repr

/-- A header has one or two brackets on each side. -/
def header? : Reader Statement
  | '[' :: '[' :: rest => do
    let (key, rest) ← key? rest
    -- the two closing brackets stand together, like the opening ones
    match skipBlanks rest with
    | ']' :: ']' :: rest => some (.item key, rest)
    | _ => none
  | '[' :: rest => do
    let (key, rest) ← key? rest
    let rest ← behind? ']' (skipBlanks rest)
    some (.header key, rest)
  | _ => none

/-- A statement. -/
def statement? : Reader Statement := fun text =>
  if text.head? = some '[' then header? text
  else
    (pair? skipBlanks (value? maxNesting) text).map fun (pair, rest) =>
      (.pair pair.1 pair.2, rest)

/-- Reads all statements of a text. -/
def statementsFrom? (done : List Statement) (text : List Char) : Option (List Statement) :=
  let start := skipTrivia text
  if start.isEmpty then some done.reverse
  else
    match statement? start with
    | none => none
    | some (statement, rest) =>
      match statementEnd? rest with
      | none => none
      | some rest =>
        if rest.length < text.length then statementsFrom? (statement :: done) rest else none
termination_by text.length

/-- The statements of a document. A byte order mark may stand in front of them. -/
def statements? (text : List Char) : Option (List Statement) :=
  match text with
  | '\uFEFF' :: rest => statementsFrom? [] rest
  | text => statementsFrom? [] text

/-! ### The root table -/

/-- A document on the way: the path of the table that pairs are entered into, and the root
table. -/
structure Progress where
  /-- The path of the last header. -/
  path : List String
  /-- The entries of the root table. -/
  root : Entries

/-- Carries out a statement. -/
def Progress.step? (progress : Progress) : Statement → Option Progress
  | .pair key value =>
    (Entries.within? false (Entries.addPair? key value) progress.path .header
      progress.root).map (⟨progress.path, ·⟩)
  | .header key =>
    (Entries.openTable? key progress.root).map (⟨key.path ++ [key.name], ·⟩)
  | .item key =>
    (Entries.openItem? key progress.root).map (⟨key.path ++ [key.name], ·⟩)

/-- The root table of a document. -/
def document? (text : List Char) : Option Entries := do
  let statements ← statements? text
  let progress ← statements.foldlM Progress.step? ⟨[], []⟩
  some progress.root

end SearchKeys.Toml
