/-
# Words and phrases with exclusion

The terms mode reads keys as a list of words and quoted phrases, each of which a hyphen in
front excludes. Operators and parentheses mean nothing to it, and a backslash escapes
nothing.

Text is cut into pieces first. A hyphen excludes if something other than a blank or a second
hyphen follows; otherwise it belongs to a word. A quote without a later one is dropped, and
an exclusion in front of it passes to the next item.

## Main definitions

* `Terms.Piece`, `Terms.pieces`: the pieces of a text.
* `Terms.Item`, `Terms.items`: the words and phrases in order, each excluded or not.
* `Mode.analyzeTerms`, `Mode.terms`: the mode.

## Main results

* `Terms.flatMap_source_pieces`: the pieces make up the text.
-/

import SearchKeys.Mode
import SearchKeys.Text.Blank

namespace SearchKeys

namespace Terms

/-- A piece of keys. -/
inductive Piece
  /-- A blank between items. -/
  | blank (char : Char)
  /-- A hyphen that excludes what follows. -/
  | hyphen
  /-- A word. -/
  | word (text : List Char)
  /-- A closed quotation, given by what stands between its quotes. -/
  | quoted (body : List Char)
  /-- A quote without a later one. -/
  | loneQuote
  deriving DecidableEq, Repr

namespace Piece

/-- The text of a piece. -/
def source : Piece → List Char
  | blank char => [char]
  | hyphen => ['-']
  | word text => text
  | quoted body => '"' :: body ++ ['"']
  | loneQuote => ['"']

end Piece

/-- Whether a character belongs to a word. -/
def isWordChar (c : Char) : Bool :=
  !Text.isBlank c && c != '"'

/-- Whether a hyphen in front of this text excludes it. -/
def excludes : List Char → Bool
  | [] => false
  | c :: _ => !Text.isBlank c && c != '-'

/-- The first piece of a text that starts with the given character, and what follows. -/
def first (c : Char) (rest : List Char) : Piece × List Char :=
  if Text.isBlank c then (.blank c, rest)
  else if c = '-' ∧ excludes rest then (.hyphen, rest)
  else if c = '"' then
    match rest.dropWhile (· != '"') with
    | [] => (.loneQuote, rest)
    | _ :: after => (.quoted (rest.takeWhile (· != '"')), after)
  else (.word (c :: rest.takeWhile isWordChar), rest.dropWhile isWordChar)

/-- The first piece and what follows make up the text. -/
theorem source_first (c : Char) (rest : List Char) :
    (first c rest).1.source ++ (first c rest).2 = c :: rest := by
  unfold first
  split
  · rfl
  · split
    · simp_all [Piece.source]
    · split
      · split
        · simp_all [Piece.source]
        · rename_i quote _ parts
          -- the part behind the body begins with the closing quote
          have head := List.head?_dropWhile_not (· != '"') rest
          have whole := List.takeWhile_append_dropWhile (p := (· != '"')) (l := rest)
          rw [parts] at head whole
          simp_all [Piece.source]
      · simp [Piece.source]

/-- A first piece is not empty. -/
theorem source_first_ne_nil (c : Char) (rest : List Char) : (first c rest).1.source ≠ [] := by
  unfold first
  split
  · simp [Piece.source]
  · split
    · simp [Piece.source]
    · split
      · split <;> simp [Piece.source]
      · simp [Piece.source]

/-- What follows the first piece is shorter than the text. -/
theorem first_shorter (c : Char) (rest : List Char) :
    (first c rest).2.length < (c :: rest).length := by
  have lengths := congrArg List.length (source_first c rest)
  have positive := List.length_pos_iff.2 (source_first_ne_nil c rest)
  rw [List.length_append] at lengths
  omega

/-- Cuts a text after the pieces `done`, latest first. -/
def cut (done : List Piece) : List Char → List Piece
  | [] => done.reverse
  | c :: rest => cut ((first c rest).1 :: done) (first c rest).2
termination_by text => text.length
decreasing_by exact first_shorter c rest

/-- The pieces of a text. -/
def pieces (text : List Char) : List Piece :=
  cut [] text

/-- Pieces already cut stay in front. -/
theorem cut_eq (done : List Piece) (text : List Char) :
    cut done text = done.reverse ++ pieces text := by
  unfold pieces
  induction length : text.length using Nat.strongRecOn generalizing done text with
  | ind n ih =>
    cases text with
    | nil => simp [cut]
    | cons c rest =>
      have shorter := first_shorter c rest
      rw [length] at shorter
      -- both sides cut off the same piece, and the text behind it is shorter
      rw [cut, cut, ih _ shorter _ _ rfl, ih _ shorter [(first c rest).1] _ rfl]
      simp

/-- The empty text has no pieces. -/
@[simp] theorem pieces_nil : pieces [] = [] := by
  simp [pieces, cut]

/-- A text is cut into its first piece and the pieces of what follows. -/
theorem pieces_cons (c : Char) (rest : List Char) :
    pieces (c :: rest) = (first c rest).1 :: pieces (first c rest).2 := by
  rw [pieces, cut, cut_eq]
  simp

/-- The pieces of a text make up the text. -/
theorem flatMap_source_pieces (text : List Char) :
    (pieces text).flatMap Piece.source = text := by
  induction length : text.length using Nat.strongRecOn generalizing text with
  | ind n ih =>
    cases text with
    | nil => simp
    | cons c rest =>
      have shorter := first_shorter c rest
      rw [length] at shorter
      rw [pieces_cons, List.flatMap_cons, ih _ shorter _ rfl, source_first]

/-- A word or a phrase to search for. -/
structure Item where
  /-- Whether it must not match. -/
  excluded : Bool
  /-- The term or phrase. -/
  token : Token
  deriving DecidableEq, Repr

namespace Item

/-- The item as a node of a query tree. -/
def node (item : Item) : Node :=
  let key := Node.keys item.token.value
  if item.excluded then key.not else key

/-- The item as tokens of the keys language. -/
def tokens (item : Item) : List Token :=
  if item.excluded then [.operator .not, item.token] else [item.token]

end Item

/-- The items of some pieces, when `excluded` says whether the next one is excluded. `done`
are the items before, latest first. A quotation of blanks only uses up an exclusion. -/
def itemsFrom (done : List Item) (excluded : Bool) : List Piece → List Item
  | [] => done.reverse
  | .blank _ :: rest => itemsFrom done excluded rest
  | .hyphen :: rest => itemsFrom done true rest
  | .loneQuote :: rest => itemsFrom done excluded rest
  | .word text :: rest => itemsFrom (⟨excluded, .term (String.ofList text)⟩ :: done) false rest
  | .quoted body :: rest =>
    let phrase := Text.collapse body
    if phrase.isEmpty then itemsFrom done false rest
    else itemsFrom (⟨excluded, .phrase (String.ofList phrase)⟩ :: done) false rest

/-- The items of some pieces in order. -/
def items (pieces : List Piece) : List Item :=
  itemsFrom [] false pieces

/-- Adds the warning about a piece that starts at the given byte, latest first, and moves on
to the byte after it. -/
def warn (state : Nat × List Warning) (piece : Piece) : Nat × List Warning :=
  (state.1 + Text.byteLength piece.source,
    if piece = .loneQuote then .unterminatedQuote state.1 :: state.2 else state.2)

/-- The warnings about the quotes without a partner among the pieces. -/
def warnings (pieces : List Piece) : List Warning :=
  (pieces.foldl warn (0, [])).2.reverse

/-- The query that searches for some items. All of them must match as soon as one is
excluded. -/
def query? (conjunction : Conjunction) (items : List Item) : Option Group :=
  if items.isEmpty then none
  else some ⟨if items.any Item.excluded then .and else conjunction, false, items.map Item.node⟩

end Terms

namespace Mode

/-- Reads keys as words and phrases. -/
def analyzeTerms (conjunction : Conjunction) (text : List Char) : Analysis :=
  let pieces := Terms.pieces text
  let items := Terms.items pieces
  ⟨items.flatMap Terms.Item.tokens, Terms.query? conjunction items, Terms.warnings pieces⟩

/-- The mode for words and phrases. -/
def terms (conjunction : Conjunction) : Mode :=
  ofText "terms" "Multiple words" "Words and \"quoted phrases\"; prefix with - to exclude"
    conjunction (analyzeTerms conjunction)

end Mode

end SearchKeys
