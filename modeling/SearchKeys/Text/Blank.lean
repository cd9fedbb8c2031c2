/-
# Blank characters

Keys are cut at blanks. A blank is a character with Unicode's `White_Space` property, so
the no-break space and the ideographic space count, and the zero width space does not.

## Main definitions

* `Text.isBlank`: the property itself.
* `Text.trim`, `Text.words`, `Text.collapse`: text without blanks at its ends, its maximal
  runs of other characters, and these runs joined by single spaces.
* `Text.byteLength`: the length of text in UTF-8.

## Main results

* `Text.byteLength_append`: lengths in bytes add up.
-/

namespace SearchKeys.Text

/-- A character is blank if it has Unicode's `White_Space` property. -/
def isBlank (c : Char) : Bool :=
  (0x09 ≤ c.toNat && c.toNat ≤ 0x0D) || c.toNat == 0x20 || c.toNat == 0x85 || c.toNat == 0xA0 ||
    c.toNat == 0x1680 || (0x2000 ≤ c.toNat && c.toNat ≤ 0x200A) || c.toNat == 0x2028 ||
    c.toNat == 0x2029 || c.toNat == 0x202F || c.toNat == 0x205F || c.toNat == 0x3000

/-- Text is blank if all its characters are; the empty text is. -/
def allBlank (text : List Char) : Bool :=
  text.all isBlank

/-- The text without the blanks at its two ends. -/
def trim (text : List Char) : List Char :=
  ((text.dropWhile isBlank).reverse.dropWhile isBlank).reverse

/-- The maximal runs of characters that are not blank, in order. -/
def words (text : List Char) : List (List Char) :=
  (text.splitOnP isBlank).filter fun word => !word.isEmpty

/-- The words of the text with one space between neighbours. -/
def collapse (text : List Char) : List Char :=
  [' '].intercalate (words text)

/-- The number of bytes of the text in UTF-8. -/
def byteLength (text : List Char) : Nat :=
  text.foldr (fun c bytes => c.utf8Size + bytes) 0

/-- A character in front adds its own bytes. -/
@[simp] theorem byteLength_cons (c : Char) (text : List Char) :
    byteLength (c :: text) = c.utf8Size + byteLength text := rfl

/-- The length of a text in bytes is the sum of the lengths of its two parts. -/
@[simp] theorem byteLength_append (first second : List Char) :
    byteLength (first ++ second) = byteLength first + byteLength second := by
  induction first with
  | nil => exact (Nat.zero_add _).symm
  | cons c first ih =>
    rw [List.cons_append, byteLength_cons, byteLength_cons, ih, Nat.add_assoc]

end SearchKeys.Text
