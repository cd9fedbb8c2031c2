/-
# Configuration files

A configuration file is a TOML document with three fields, of which two are sections. Every
field may be left out. The entries of a table are read in increasing order of their names, so
the first fault in that order is reported, and a section is read to its end before the entry
behind it.

## Main definitions

* `ParseSection`, `OutputSection`, `SettingsFile`: what a configuration file says.
* `Fields.read`: a table, or an array with the fields in order, read into a record.
* `SettingsFile.ofText`: a configuration file from its text.
-/

import SearchKeys.Settings
import SearchKeys.Settings.Fault
import SearchKeys.Toml.Document

namespace SearchKeys

/-- What a configuration file says about the parsing of keys. -/
structure ParseSection where
  /-- The id of the parse mode. -/
  mode : Option String := none
  /-- The conjunction between keys with no operator. -/
  conjunction : Option Conjunction := none
  deriving DecidableEq, Repr

/-- What a configuration file says about the showing of results. -/
structure OutputSection where
  /-- How a query is shown. -/
  format : Option OutputFormat := none
  /-- Whether a terminal shows colours. -/
  color : Option Bool := none
  deriving DecidableEq, Repr

/-- What a configuration file says. -/
structure SettingsFile where
  /-- Whether files of directories above count no more. -/
  root : Option Bool := none
  /-- How keys are parsed. -/
  parse : Option ParseSection := none
  /-- How results are shown. -/
  output : Option OutputSection := none
  deriving DecidableEq, Repr

/-! ### Values of fields -/

/-- A truth value. -/
def readBoolean : Toml.Value → Except Fault Bool
  | .boolean value => .ok value
  | value => .error (.unexpected value "a boolean")

/-- A string. -/
def readString : Toml.Value → Except Fault String
  | .string text => .ok text
  | value => .error (.unexpected value "a string")

/-- A choice by its name. -/
def readChoice {α : Type} (choices : List (String × α)) (name : String) : Except Fault α :=
  match choices.lookup name with
  | some choice => .ok choice
  | none => .error (.unknownChoice name (choices.map Prod.fst))

/-- A choice, which is a string or a table with the choice as its one key and nothing as its
value. -/
def readChoiceValue {α : Type} (choices : List (String × α)) : Toml.Value → Except Fault α
  | .string name => readChoice choices name
  | .table _ [] => .error .noChoice
  | .table _ [(name, value)] => do
    let choice ← readChoice choices name
    match value with
    | .array _ [] | .table _ [] => .ok choice
    | .array _ _ => .error .choiceWithItems
    | .table _ _ => .error .choiceWithEntries
    | value => .error (.choiceWithValue value)
  | .table _ _ => .error .manyChoices
  | _ => .error .choiceOfOtherType

/-! ### Records -/

/-- The fields of a record by name, each with the way a value is put into it. -/
abbrev Fields (α : Type) := List (String × (Toml.Value → α → Except Fault α))

namespace Fields

variable {α : Type}

/-- The names of the fields. -/
def names (fields : Fields α) : List String :=
  fields.map Prod.fst

/-- Puts the values of named entries into a record, one after another. -/
def readEntries (fields : Fields α) (start : α) (entries : Toml.Entries) : Except Fault α :=
  entries.foldlM (fun record entry =>
    match fields.lookup entry.1 with
    | some put => put entry.2 record
    | none => .error (.unknownField entry.1 fields.names)) start

/-- Puts a value into a record: a table by the names of its entries, an array by the order of
its items, of which further ones count for nothing. A date is known by the name of a field that
no record has. -/
def read (fields : Fields α) (expected : String) (start : α) : Toml.Value → Except Fault α
  | .table _ entries => fields.readEntries start entries
  | .array _ items => fields.readEntries start (fields.names.zip items)
  | .datetime => .error (.unknownField "$__toml_private_datetime" fields.names)
  | value => .error (.unexpected value expected)

end Fields

/-- The spellings of the formats in a configuration file. -/
def OutputFormat.choices : List (String × OutputFormat) :=
  [tree, json, query].map fun format => (format.keyword, format)

/-- The fields of the section about parsing. -/
def ParseSection.fields : Fields ParseSection :=
  [("mode", fun value part => do
      return { part with mode := some (← readString value) }),
    ("conjunction", fun value part => do
      return { part with
        conjunction := some (← readChoiceValue Conjunction.settingSpellings value) })]

/-- The fields of the section about output. -/
def OutputSection.fields : Fields OutputSection :=
  [("format", fun value part => do
      return { part with format := some (← readChoiceValue OutputFormat.choices value) }),
    ("color", fun value part => do
      return { part with color := some (← readBoolean value) })]

/-- The fields of a configuration file. -/
def SettingsFile.fields : Fields SettingsFile :=
  [("root", fun value file => do
      return { file with root := some (← readBoolean value) }),
    ("parse", fun value file => do
      let part ← ParseSection.fields.read "struct RawParseSettings" {} value
      return { file with parse := some part }),
    ("output", fun value file => do
      let part ← OutputSection.fields.read "struct RawOutputSettings" {} value
      return { file with output := some part })]

/-- What a configuration file with this text says. A number without a value does no harm as long
as nothing is read from it; but in a file with a fault it counts as the first one. -/
def SettingsFile.ofText (text : List Char) : Except Fault SettingsFile :=
  match Toml.document? text with
  | none => .error .malformed
  | some entries =>
    match fields.readEntries {} entries with
    | .ok file => .ok file
    | .error fault => .error (if Toml.entriesComplete entries then fault else .malformed)

end SearchKeys
