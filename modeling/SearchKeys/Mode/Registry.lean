/-
# The registry of parse modes

Parse modes are chosen by id. A registry maps ids to constructors of modes, in the order of
the ids.

## Main definitions

* `Registry`: ids with their constructors.
* `Registry.register`: adds a constructor, or replaces the one with the same id.
* `Registry.create`, `Registry.createAll`: the mode under an id, and all modes.
* `Registry.standard`: the modes that are always there.
-/

import SearchKeys.Dictionary
import SearchKeys.Mode.Complex
import SearchKeys.Mode.Phrase
import SearchKeys.Mode.Terms

namespace SearchKeys

/-- Parse modes by id, in increasing order of the ids. -/
structure Registry where
  /-- The ids with the constructors of their modes. -/
  entries : List (String × (Conjunction → Mode))

namespace Registry

/-- The registry without modes. -/
def empty : Registry :=
  ⟨[]⟩

/-- Adds a constructor. It replaces an earlier one with the same id. -/
def register (id : String) (constructor : Conjunction → Mode) (registry : Registry) : Registry :=
  ⟨Dictionary.insert id constructor registry.entries⟩

/-- The registered ids in order. -/
def ids (registry : Registry) : List String :=
  registry.entries.map Prod.fst

/-- Whether a mode is registered under the id. -/
def contains (registry : Registry) (id : String) : Bool :=
  registry.ids.contains id

/-- The mode registered under an id, with its conjunction. -/
def create (registry : Registry) (id : String) (conjunction : Conjunction) :
    Except KeysError Mode :=
  match registry.entries.lookup id with
  | some constructor => .ok (constructor conjunction)
  | none => .error (.unknownMode id)

/-- All registered modes in the order of their ids. -/
def createAll (registry : Registry) (conjunction : Conjunction) : List Mode :=
  registry.entries.map fun entry => entry.2 conjunction

/-- The registry with the three modes that are always there. -/
def standard : Registry :=
  empty |>.register "complex" Mode.complex |>.register "terms" Mode.terms
    |>.register "phrase" Mode.phrase

end Registry

end SearchKeys
