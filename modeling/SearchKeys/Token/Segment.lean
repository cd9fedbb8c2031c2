/-
# Cutting keys into tokens

Read from the left, keys fall apart into segments: blanks, parentheses, words, and quoted
text. A quote is closed by the first later quote that does not follow a backslash; a quote
that is never closed is a segment of its own, and the text after it is cut as if it were not
quoted.

## Main definitions

* `Segment`: the pieces of the keys.
* `Segment.ofText`: the segments of a text.
* `Segment.token?`: the token of a segment; blanks and blank quotations have none.
* `Token.scan`: the tokens of a text with the warnings about its unclosed quotes.

## Main results

* `Segment.flatMap_source_ofText`: the segments make up the text.
-/

import SearchKeys.Text.Blank
import SearchKeys.Text.Utf8
import SearchKeys.Warning

namespace SearchKeys

/-- A piece of keys. -/
inductive Segment
  /-- A blank between tokens. -/
  | blank (char : Char)
  /-- A left parenthesis. -/
  | openParen
  /-- A right parenthesis. -/
  | closeParen
  /-- A run of other characters. -/
  | word (text : List Char)
  /-- A closed quotation, given by what stands between its quotes. -/
  | quoted (body : List Char)
  /-- A quote that is never closed. -/
  | loneQuote
  deriving DecidableEq, Repr

namespace Segment

/-- The text of a segment. -/
def source : Segment → List Char
  | blank char => [char]
  | openParen => ['(']
  | closeParen => [')']
  | word text => text
  | quoted body => '"' :: body ++ ['"']
  | loneQuote => ['"']

/-- Whether a character belongs to a word. -/
def isWordChar (c : Char) : Bool :=
  !Text.isBlank c && c != '(' && c != ')' && c != '"'

/-- Cuts the text after a quote at the closing quote, if there is one. `done` is what was
passed so far, latest first. -/
def closeQuoteFrom? (done : List Char) : List Char → Option (List Char × List Char)
  | [] => none
  | '"' :: rest => some (done.reverse, rest)
  | '\\' :: '"' :: rest => closeQuoteFrom? ('"' :: '\\' :: done) rest
  | c :: rest => closeQuoteFrom? (c :: done) rest

/-- The body and the rest of a quotation whose opening quote was just read. -/
def closeQuote? (text : List Char) : Option (List Char × List Char) :=
  closeQuoteFrom? [] text

/-- The body of a quotation, its closing quote and the rest make up the text. -/
theorem closeQuoteFrom?_eq_some {done text body rest : List Char}
    (closed : closeQuoteFrom? done text = some (body, rest)) :
    done.reverse ++ text = body ++ '"' :: rest := by
  fun_induction closeQuoteFrom? done text with
  | case1 => cases closed
  | case2 => simp_all
  | case3 _ _ ih => simpa using ih closed
  | case4 _ _ _ _ _ ih => simpa using ih closed

/-- Closing a quotation cuts the text at a quote. -/
theorem closeQuote?_eq_some {text body rest : List Char}
    (closed : closeQuote? text = some (body, rest)) : text = body ++ '"' :: rest := by
  simpa using closeQuoteFrom?_eq_some closed

/-- The first segment of a text that starts with the given character, and what follows. -/
def first (c : Char) (rest : List Char) : Segment × List Char :=
  if Text.isBlank c then (blank c, rest)
  else if c = '(' then (openParen, rest)
  else if c = ')' then (closeParen, rest)
  else if c = '"' then
    match closeQuote? rest with
    | some (body, rest) => (quoted body, rest)
    | none => (loneQuote, rest)
  else (word (c :: rest.takeWhile isWordChar), rest.dropWhile isWordChar)

/-- The first segment and what follows make up the text. -/
theorem source_first (c : Char) (rest : List Char) :
    (first c rest).1.source ++ (first c rest).2 = c :: rest := by
  unfold first
  split
  · rfl
  · split
    · simp_all [source]
    · split
      · simp_all [source]
      · split
        · split
          · -- the text behind the quote is the body, the closing quote and the rest
            rename_i closed
            simp_all [source, closeQuote?_eq_some closed]
          · simp_all [source]
        · simp [source]

/-- A first segment is not empty. -/
theorem source_first_ne_nil (c : Char) (rest : List Char) : (first c rest).1.source ≠ [] := by
  unfold first
  split
  · simp [source]
  · split
    · simp [source]
    · split
      · simp [source]
      · split
        · split <;> simp [source]
        · simp [source]

/-- What follows the first segment is shorter than the text. -/
theorem first_shorter (c : Char) (rest : List Char) :
    (first c rest).2.length < (c :: rest).length := by
  have lengths := congrArg List.length (source_first c rest)
  have positive := List.length_pos_iff.2 (source_first_ne_nil c rest)
  rw [List.length_append] at lengths
  omega

/-- Cuts a text after the segments `done`, latest first. -/
def cut (done : List Segment) : List Char → List Segment
  | [] => done.reverse
  | c :: rest => cut ((first c rest).1 :: done) (first c rest).2
termination_by text => text.length
decreasing_by exact first_shorter c rest

/-- The segments of a text. -/
def ofText (text : List Char) : List Segment :=
  cut [] text

/-- Segments already cut stay in front. -/
theorem cut_eq (done : List Segment) (text : List Char) :
    cut done text = done.reverse ++ ofText text := by
  unfold ofText
  induction length : text.length using Nat.strongRecOn generalizing done text with
  | ind n ih =>
    cases text with
    | nil => simp [cut]
    | cons c rest =>
      have shorter := first_shorter c rest
      rw [length] at shorter
      -- both sides cut off the same segment, and the text behind it is shorter
      rw [cut, cut, ih _ shorter _ _ rfl, ih _ shorter [(first c rest).1] _ rfl]
      simp

/-- The empty text has no segments. -/
@[simp] theorem ofText_nil : ofText [] = [] := by
  simp [ofText, cut]

/-- A text is cut into its first segment and the segments of what follows. -/
theorem ofText_cons (c : Char) (rest : List Char) :
    ofText (c :: rest) = (first c rest).1 :: ofText (first c rest).2 := by
  rw [ofText, cut, cut_eq]
  simp

/-- The segments of a text make up the text. -/
theorem flatMap_source_ofText (text : List Char) : (ofText text).flatMap source = text := by
  induction length : text.length using Nat.strongRecOn generalizing text with
  | ind n ih =>
    cases text with
    | nil => simp
    | cons c rest =>
      have shorter := first_shorter c rest
      rw [length] at shorter
      rw [ofText_cons, List.flatMap_cons, ih _ shorter _ rfl, source_first]

/-- Reads on in the body of a quotation after the characters `done`, latest first. -/
def unescapeFrom (done : List Char) : List Char → List Char
  | [] => done.reverse
  | '\\' :: '"' :: rest => unescapeFrom ('"' :: done) rest
  | c :: rest => unescapeFrom (c :: done) rest

/-- The text that the body of a quotation stands for: a backslash before a quote is left
out, any other backslash is itself. -/
def unescape (body : List Char) : List Char :=
  unescapeFrom [] body

/-- Characters read earlier stay in front. -/
theorem unescapeFrom_append (done earlier body : List Char) :
    unescapeFrom (done ++ earlier) body = earlier.reverse ++ unescapeFrom done body := by
  fun_induction unescapeFrom done body generalizing earlier with
  | case1 => simp [unescapeFrom]
  | case2 done rest ih => simpa [unescapeFrom] using ih earlier
  | case3 done c rest other ih =>
    rw [unescapeFrom.eq_3 _ _ _ other]
    exact ih earlier

/-- A backslash before a quote is left out. -/
theorem unescape_escaped (rest : List Char) :
    unescape ('\\' :: '"' :: rest) = '"' :: unescape rest := by
  simpa [unescape, unescapeFrom] using unescapeFrom_append [] ['"'] rest

/-- Any other character stands for itself. -/
theorem unescape_cons (c : Char) (rest : List Char)
    (other : ∀ tail, c = '\\' → rest = '"' :: tail → False) :
    unescape (c :: rest) = c :: unescape rest := by
  rw [unescape, unescapeFrom.eq_3 _ _ _ other]
  simpa [unescape] using unescapeFrom_append [] [c] rest

/-- The token of a word: an operator if it is spelled exactly so. -/
def wordToken (text : String) : Token :=
  match Operator.ofKeyword? text with
  | some operator => .operator operator
  | none => .term text

/-- The token of a segment. Blanks have none, and neither has a quotation of blanks only. -/
def token? : Segment → Option Token
  | blank _ => none
  | openParen => some .openParen
  | closeParen => some .closeParen
  | word text => some (wordToken (String.ofList text))
  | quoted body =>
    let text := unescape body
    if Text.allBlank text then none else some (.phrase (String.ofList text))
  | loneQuote => some (.term "\"")

/-- Adds the warning about a segment that starts at the given byte, latest first, and moves
on to the byte after it. -/
def warn (state : Nat × List Warning) (segment : Segment) : Nat × List Warning :=
  (state.1 + Text.byteLength segment.source,
    if segment = loneQuote then .unterminatedQuote state.1 :: state.2 else state.2)

/-- The warnings about the unclosed quotes among the segments. -/
def warnings (segments : List Segment) : List Warning :=
  (segments.foldl warn (0, [])).2.reverse

end Segment

namespace Token

/-- The tokens of a text, with the warnings about its unclosed quotes. -/
def scan (text : List Char) : List Token × List Warning :=
  let segments := Segment.ofText text
  (segments.filterMap Segment.token?, Segment.warnings segments)

/-- The tokens of a text. -/
def ofText (text : List Char) : List Token :=
  (scan text).1

/-- The tokens and warnings of raw keys, which must be UTF-8. -/
def scanBytes (keys : List UInt8) : Except KeysError (List Token × List Warning) :=
  match Text.decode keys with
  | .ok text => .ok (scan text)
  | .error position => .error (.invalidUtf8 position)

end Token

end SearchKeys
