/-
# Parse modes

A parse mode decides how raw keys are interpreted as a query.

## Main definitions

* `Analysis`: what a mode makes of keys.
* `Mode`: a parse mode with its description.
* `Mode.ofText`: a mode that works on the characters of the keys and refuses keys that are
  not UTF-8.
* `Mode.query?`: only the query.
-/

import SearchKeys.Text.Utf8
import SearchKeys.Warning
import SearchKeys.Query.Node

namespace SearchKeys

/-- What a parse mode makes of keys. -/
structure Analysis where
  /-- The tokens found on the way. -/
  tokens : List Token
  /-- The query, if the keys hold one. -/
  query : Option Group
  /-- What was tolerated. -/
  warnings : List Warning
  deriving DecidableEq, Repr

/-- The analysis of keys that hold nothing. -/
def Analysis.empty : Analysis :=
  ⟨[], none, []⟩

/-- A way of interpreting keys. -/
structure Mode where
  /-- The name used in configuration files and on the command line. -/
  id : String
  /-- The name shown to people. -/
  label : String
  /-- One line about how keys are interpreted. -/
  description : String
  /-- The conjunction between keys with no operator. -/
  conjunction : Conjunction
  /-- What the mode makes of raw keys. -/
  analyze : List UInt8 → Except KeysError Analysis

namespace Mode

/-- The characters of raw keys. -/
def decodeKeys (keys : List UInt8) : Except KeysError (List Char) :=
  match Text.decode keys with
  | .ok text => .ok text
  | .error position => .error (.invalidUtf8 position)

/-- A mode that works on the characters of the keys. -/
def ofText (id label description : String) (conjunction : Conjunction)
    (analyze : List Char → Analysis) : Mode :=
  ⟨id, label, description, conjunction, fun keys => (decodeKeys keys).map analyze⟩

/-- The query in raw keys. Keys that cannot be read hold none. -/
def query? (mode : Mode) (keys : List UInt8) : Option Group :=
  match mode.analyze keys with
  | .ok analysis => analysis.query
  | .error _ => none

end Mode

end SearchKeys
