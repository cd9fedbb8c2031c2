/-
# Values of a TOML document

A document is a table of values. How a table or an array came about decides what later
statements may add to it, so both remember their origin.

A number is recognized by its shape. Its value is missing if 64 bits cannot represent it, which
is noticed only where the value is needed.

## Main definitions

* `Toml.Origin`: how a table came about.
* `Toml.Value`: the values.
* `Toml.Value.typeName`: the name of the type of a value.
* `Toml.Value.isComplete`: whether all numbers in a value can be represented.
* `Toml.truthKeyword`: the spelling of a truth value.
-/

import SearchKeys.Binary64

namespace SearchKeys.Toml

/-- How a table came about. -/
inductive Origin
  /-- It stands in braces, complete. -/
  | braces
  /-- A header names it. -/
  | header
  /-- A header names a table below it. -/
  | impliedByHeader
  /-- It is a part of a dotted key. -/
  | dottedKey
  deriving DecidableEq, Repr

/-- A value of a TOML document. -/
inductive Value
  /-- A string in any of its four forms. -/
  | string (text : String)
  /-- An integer, without a value if it is beyond 64 bits or its digits are not all of its
  base. -/
  | integer (value : Option Int)
  /-- A floating-point number, without a value if it is beyond the largest finite one. -/
  | float (value : Option Binary64)
  /-- A truth value. -/
  | boolean (value : Bool)
  /-- A date, a time or both. -/
  | datetime
  /-- An array; it takes further tables if it came about by headers. -/
  | array (byHeaders : Bool) (items : List Value)
  /-- A table, its entries in increasing order of their keys. -/
  | table (origin : Origin) (entries : List (String × Value))
  deriving Repr

/-- The entries of a table in increasing order of their keys. -/
abbrev Entries := List (String × Value)

/-- The name of the type of a value. -/
def Value.typeName : Value → String
  | string _ => "string"
  | integer _ => "integer"
  | float _ => "float"
  | boolean _ => "boolean"
  | datetime => "datetime"
  | array _ _ => "array"
  | table _ _ => "table"

mutual

/-- Whether every number in a value has a value of its own. -/
def Value.isComplete : Value → Bool
  | .integer value => value.isSome
  | .float value => value.isSome
  | .array _ items => allComplete items
  | .table _ entries => entriesComplete entries
  | .string _ | .boolean _ | .datetime => true

/-- Whether every number in some values has a value of its own. -/
def allComplete : List Value → Bool
  | [] => true
  | item :: rest => item.isComplete && allComplete rest

/-- Whether every number in the values of some entries has a value of its own. -/
def entriesComplete : List (String × Value) → Bool
  | [] => true
  | (_, value) :: rest => value.isComplete && entriesComplete rest

end

/-- The spelling of a truth value. -/
def truthKeyword (value : Bool) : String :=
  if value then "true" else "false"

end SearchKeys.Toml
