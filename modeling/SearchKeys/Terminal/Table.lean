/-
# Tables

A table has a frame of box-drawing characters, one row per line and a double rule below its
heading. A column is as wide as its widest cell, with a space on either side.

## Main definitions

* `Table`: a heading and rows of cells.
* `Table.text`: the table as text, without a final line end.
-/

import SearchKeys.Terminal.Listing

namespace SearchKeys.Terminal

/-- A table with one text per cell. -/
structure Table where
  /-- The cells of the heading. -/
  heading : List String
  /-- The rows below it. -/
  rows : List (List String)
  deriving Repr

namespace Table

/-- The width of each column: the length of its longest cell. -/
def widths (table : Table) : List Nat :=
  table.rows.foldl (fun widths row => widths.zipWith max (row.map String.length))
    (table.heading.map String.length)

/-- A horizontal line of the frame: its ends, its crossings and what it is drawn with. -/
def frameLine (left crossing right : String) (stroke : Char) (widths : List Nat) : String :=
  left ++
    crossing.intercalate
      (widths.map fun width => String.ofList (List.replicate (width + 2) stroke)) ++
    right

/-- A row of cells between the lines of the frame. -/
def rowLine (widths : List Nat) (cells : List String) : String :=
  "│" ++ "┆".intercalate (widths.zipWith (fun width cell => " " ++ pad width cell ++ " ") cells) ++
    "│"

/-- The table as text. -/
def text (table : Table) : String :=
  let widths := table.widths
  "\n".intercalate
    ([frameLine "┌" "┬" "┐" '─' widths, rowLine widths table.heading,
        frameLine "╞" "╪" "╡" '═' widths] ++
      table.rows.map (rowLine widths) ++ [frameLine "└" "┴" "┘" '─' widths])

end Table

end SearchKeys.Terminal
