/-
# Conjunctions

A conjunction says how the members of a group are combined.

## Main definitions

* `Conjunction.keyword`: the spelling of a conjunction in keys.
* `Conjunction.parse`: a conjunction from the command line, in any case of its letters.
* `Conjunction.ofSetting?`: a conjunction from a configuration file, in capitals or small
  letters only.
-/

import SearchKeys.KeysError

namespace SearchKeys

/-- How the members of a group are combined: all of them, or at least one. -/
inductive Conjunction
  | and
  | or
  deriving DecidableEq, Repr, Inhabited

namespace Conjunction

/-- The spelling of a conjunction in keys. -/
def keyword : Conjunction → String
  | and => "AND"
  | or => "OR"

/-- Whether two texts differ at most in the case of ASCII letters. -/
def sameLetters (first second : String) : Bool :=
  first.toList.map Char.toLower == second.toList.map Char.toLower

/-- Reads a conjunction in any case of its letters. -/
def parse (value : String) : Except KeysError Conjunction :=
  if sameLetters value "AND" then .ok and
  else if sameLetters value "OR" then .ok or
  else .error (.invalidConjunction value)

/-- The spellings of a conjunction in a configuration file. -/
def settingSpellings : List (String × Conjunction) :=
  [("AND", and), ("and", and), ("OR", or), ("or", or)]

/-- Reads a conjunction as a configuration file spells it. -/
def ofSetting? (value : String) : Option Conjunction :=
  settingSpellings.lookup value

end Conjunction

end SearchKeys
