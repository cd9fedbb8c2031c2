/-
# Faults of configuration files

A configuration file may fail to be a TOML document, or be one that does not fit the settings.
The first fault found is reported.

What makes a file no TOML document is not told apart, and no place in a file is named.

## Main definitions

* `Found`: what a value of the wrong type is called.
* `Fault`: the faults.
* `Fault.unexpected`: the fault of a value of the wrong type.
* `Fault.message`: their wording.
-/

import SearchKeys.Text.Quoted
import SearchKeys.Toml.Value

namespace SearchKeys

/-- What was found in place of a value of another type. -/
inductive Found
  | string (text : String)
  | integer (value : Int)
  | float (value : Binary64)
  | boolean (value : Bool)
  | sequence
  | map
  deriving DecidableEq, Repr

/-- What a value is found to be. A number without a value is nothing that can be named. -/
def Toml.Value.found? : Toml.Value → Option Found
  | .string text => some (.string text)
  | .integer value => value.map Found.integer
  | .float value => value.map Found.float
  | .boolean value => some (.boolean value)
  | .array _ _ => some .sequence
  | .datetime | .table _ _ => some .map

/-- What is wrong with a configuration file. -/
inductive Fault
  /-- It is not a TOML document. -/
  | malformed
  /-- A section has no such field. -/
  | unknownField (name : String) (known : List String)
  /-- A field has no such choice. -/
  | unknownChoice (name : String) (known : List String)
  /-- A field has a value of another type. -/
  | wrongType (found : Found) (expected : String)
  /-- A choice is neither a string nor a table. -/
  | choiceOfOtherType
  /-- A choice is a table without entries. -/
  | noChoice
  /-- A choice is a table with several entries. -/
  | manyChoices
  /-- The value beside a choice is an array with items. -/
  | choiceWithItems
  /-- The value beside a choice is a table with entries. -/
  | choiceWithEntries
  /-- The value beside a choice is neither an array nor a table. -/
  | choiceWithValue (value : Toml.Value)
  deriving Repr

namespace Fault

/-- A name in the wording of a fault. -/
def ticked (name : String) : String :=
  "`" ++ name ++ "`"

/-- The names that are known, as an enumeration. -/
def expectation : List String → String
  | [] => "nothing"
  | [only] => ticked only
  | [first, second] => ticked first ++ " or " ++ ticked second
  | names => "one of " ++ ", ".intercalate (names.map ticked)

/-- The name of what was found in the wording of a fault. -/
def foundText : Found → String
  | .string text => "string " ++ Text.quoted text
  | .integer value => "integer " ++ ticked (toString value)
  | .float value => "floating point " ++ ticked value.text
  | .boolean value => "boolean " ++ ticked (Toml.truthKeyword value)
  | .sequence => "sequence"
  | .map => "map"

/-- The fault of a value where another type is expected. A number without a value makes the
file as a whole malformed. -/
def unexpected (value : Toml.Value) (expected : String) : Fault :=
  match value.found? with
  | some found => wrongType found expected
  | none => malformed

/-- The wording of a fault. -/
def message : Fault → String
  | malformed => "syntax"
  | unknownField name known =>
    "unknown field " ++ ticked name ++ ", expected " ++ expectation known
  | unknownChoice name known =>
    "unknown variant " ++ ticked name ++ ", expected " ++ expectation known
  | wrongType found expected => "invalid type: " ++ foundText found ++ ", expected " ++ expected
  | choiceOfOtherType => "wanted string or table"
  | noChoice => "wanted exactly 1 element, found 0 elements"
  | manyChoices => "wanted exactly 1 element, more than 1 element"
  | choiceWithItems => "expected empty array"
  | choiceWithEntries => "expected empty table"
  | choiceWithValue value => "expected table, found " ++ value.typeName

end Fault

end SearchKeys
