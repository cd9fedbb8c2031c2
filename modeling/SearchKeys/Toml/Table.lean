/-
# Building the tables of a TOML document

The statements of a document enter their values into tables along dotted keys. A table that
is complete takes nothing more, no value is entered twice, and no table is opened twice.

## Main definitions

* `Toml.Key`: a dotted key.
* `Toml.Entries.within?`: a change of the table at the end of a path.
* `Toml.Entries.addPair?`: the entry of a key and a value.
* `Toml.Entries.openTable?`, `Toml.Entries.openItem?`: a table opened by its header, and a
  table opened as a new item of an array.
-/

import SearchKeys.Dictionary
import SearchKeys.Toml.Value

namespace SearchKeys.Toml

/-- A dotted key: the tables it leads through, and the name in the last of them. -/
structure Key where
  /-- The names of the tables on the way. -/
  path : List String
  /-- The name of the entry itself. -/
  name : String
  deriving DecidableEq, Repr

/-- A key from all its parts. -/
def Key.ofParts? (parts : List String) : Option Key :=
  parts.getLast?.map fun name => ⟨parts.dropLast, name⟩

namespace Entries

/-- Changes the table at the end of a path. Tables missing on the way are made; in an array of
tables the way leads through the last one. A complete table is closed to every path, and a
table with a header of its own is closed to the path of a dotted key. -/
def within? (dotted : Bool) (change : Origin → Entries → Option Entries) :
    List String → Origin → Entries → Option Entries
  | [], origin, entries => change origin entries
  | name :: path, _, entries =>
    match entries.lookup name with
    | none =>
      let origin := if dotted then Origin.dottedKey else .impliedByHeader
      (within? dotted change path origin []).map fun inner =>
        Dictionary.insert name (.table origin inner) entries
    | some (.table origin inner) =>
      if origin = .braces ∨ (dotted ∧ origin = .header) then none
      else
        (within? dotted change path origin inner).map fun inner =>
          Dictionary.insert name (.table origin inner) entries
    | some (.array true items) =>
      -- the last item is the one whose header came last
      match items.getLast? with
      | some (.table origin inner) =>
        (within? dotted change path origin inner).map fun inner =>
          Dictionary.insert name (.array true (items.dropLast ++ [.table origin inner])) entries
      | _ => none
    | some _ => none

/-- Enters a value under a key. The key must be new, and dotted keys alone add to the tables
they have made. -/
def addPair? (key : Key) (value : Value) (origin : Origin) (entries : Entries) :
    Option Entries :=
  let dotted := !key.path.isEmpty
  within? dotted (fun origin entries =>
    if (origin == .dottedKey) != dotted || (entries.lookup key.name).isSome then none
    else some (Dictionary.insert key.name value entries)) key.path origin entries

/-- Opens the table of a header. It must be new, or so far known only from headers of tables
below it. -/
def openTable? (key : Key) (entries : Entries) : Option Entries :=
  within? false (fun _ entries =>
    match entries.lookup key.name with
    | none => some (Dictionary.insert key.name (.table .header []) entries)
    | some (.table .impliedByHeader inner) =>
      some (Dictionary.insert key.name (.table .header inner) entries)
    | some _ => none) key.path .header entries

/-- Opens a new table as the last item of an array of tables. -/
def openItem? (key : Key) (entries : Entries) : Option Entries :=
  within? false (fun _ entries =>
    match entries.lookup key.name with
    | none => some (Dictionary.insert key.name (.array true [.table .header []]) entries)
    | some (.array true items) =>
      some (Dictionary.insert key.name (.array true (items ++ [.table .header []])) entries)
    | some _ => none) key.path .header entries

/-- The entries of a table in braces. -/
def ofPairs? (pairs : List (Key × Value)) : Option Entries :=
  pairs.foldlM (fun entries pair => addPair? pair.1 pair.2 .braces entries) []

end Entries

end SearchKeys.Toml
