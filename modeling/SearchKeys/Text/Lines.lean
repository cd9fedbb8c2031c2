/-
# Lines

A line ends with a line feed; the last line of a text may lack it.

## Main definitions

* `Text.pieces`: the lines with their ends.
* `Text.lines`: the lines without their ends, where a carriage return before the line feed
  belongs to the end.

## Main results

* `Text.flatten_pieces`: the pieces make up the text.
-/

namespace SearchKeys.Text

/-- Puts a character in front of the first piece, or makes it the first piece if it ends a
line. -/
def addToPieces (c : Char) : List (List Char) → List (List Char)
  | [] => [[c]]
  | piece :: pieces => if c = '\n' then [c] :: piece :: pieces else (c :: piece) :: pieces

/-- The lines of the text, each with its line feed. -/
def pieces (text : List Char) : List (List Char) :=
  text.foldr addToPieces []

/-- The pieces of a text make up the text. -/
theorem flatten_pieces (text : List Char) : (pieces text).flatten = text := by
  induction text with
  | nil => rfl
  | cons c text ih =>
    change (addToPieces c (pieces text)).flatten = c :: text
    cases parts : pieces text with
    | nil => simp_all [addToPieces]
    | cons piece rest =>
      rw [parts] at ih
      -- a line feed is a piece of its own, anything else joins the next piece
      by_cases feed : c = '\n' <;> simp_all [addToPieces]

/-- A piece without its line end. -/
def chomp (piece : List Char) : List Char :=
  match piece.reverse with
  | '\n' :: '\r' :: rest => rest.reverse
  | '\n' :: rest => rest.reverse
  | _ => piece

/-- The lines of the text without their ends. -/
def lines (text : List Char) : List (List Char) :=
  (pieces text).map chomp

end SearchKeys.Text
