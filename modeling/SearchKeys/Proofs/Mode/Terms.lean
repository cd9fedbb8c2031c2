/-
# Words and phrases of the terms mode

The scan looks at the first character and a few behind it. What it finds can be said without it: a
text starts with a blank, a hyphen that excludes, a word that goes on as long as it can, a quotation
up to the next quote, or a quote with no other one behind it.

The items of a text are the words among its pieces and its closed quotations with something
visible in them. Each is a term or a phrase, and each becomes one child of the query.

## Main definitions

* `Terms.Starts`, `Terms.Cuts`: the piece that a text starts with, and all of its pieces.

## Main results

* `Terms.cuts_iff`: the pieces of a text are those of the rule.
* `Terms.Cuts.flatMap_source`: pieces make up the text that falls apart into them.
* `Terms.forall_mem_items`: what holds of the token of every item.
* `Terms.of_word_mem`: nothing in a word is blank or a quote.
* `Terms.pieces_word_append`: a word that starts with no hyphen is a piece of its own.
* `Terms.pieces_excluded`: a hyphen in front of a word excludes it.
* `Terms.items_carry`, `Terms.items_visible`: every item carries a search key with something
  visible in it.
* `Terms.keys_tokens`, `Terms.leaves_items`: the items are the keys of the tokens and of the query.
* `Terms.warnings_eq_nil`, `Terms.warnings_eq_singleton`: without lone quotes there is nothing to
  warn about, and a single one is reported where it stands.
-/

import SearchKeys.Mode.Terms
import SearchKeys.Proofs.Text.Blank
import Mathlib.Data.List.TakeWhile

namespace SearchKeys.Terms

/-! ### The pieces of a text -/

/-- A text starts with a piece, and this follows it. -/
inductive Starts : List Char → Piece → List Char → Prop
  | blank {c : Char} {rest : List Char} (isBlank : Text.isBlank c) :
      Starts (c :: rest) (.blank c) rest
  | hyphen {rest : List Char} (excludes : excludes rest) : Starts ('-' :: rest) .hyphen rest
  /-- A run of word characters that cannot go on and has no hyphen in front that excludes it. -/
  | word {text rest : List Char} (notEmpty : text ≠ []) (inside : ∀ c ∈ text, isWordChar c)
      (maximal : ∀ c, rest.head? = some c → isWordChar c = false)
      (included : ∀ behind, text ++ rest = '-' :: behind → excludes behind = false) :
      Starts (text ++ rest) (.word text) rest
  /-- A quote and what stands behind it up to the next one. -/
  | quoted {body rest : List Char} (noQuote : '"' ∉ body) :
      Starts ('"' :: (body ++ '"' :: rest)) (.quoted body) rest
  /-- A quote with no other one behind it. -/
  | loneQuote {rest : List Char} (noQuote : '"' ∉ rest) : Starts ('"' :: rest) .loneQuote rest

/-- A text falls apart into pieces, read from the left. -/
inductive Cuts : List Char → List Piece → Prop
  | nil : Cuts [] []
  | cons {text rest : List Char} {piece : Piece} {pieces : List Piece}
      (starts : Starts text piece rest) (behind : Cuts rest pieces) : Cuts text (piece :: pieces)

section Rule

variable {text rest : List Char} {piece : Piece} {pieces : List Piece}

/-- A piece and what follows it make up the text. -/
theorem Starts.source_append (starts : Starts text piece rest) : piece.source ++ rest = text := by
  cases starts <;> simp [Piece.source]

theorem isWordChar_iff {c : Char} : isWordChar c = true ↔ Text.isBlank c = false ∧ c ≠ '"' := by
  simp [isWordChar]

/-- The text behind a quote up to the next one, if there is one. -/
theorem starts_quote (rest : List Char) :
    Starts ('"' :: rest) (first '"' rest).1 (first '"' rest).2 := by
  have visible : Text.isBlank '"' = false := by decide
  have noQuote : '"' ∉ rest.takeWhile (· != '"') := fun member => by
    simpa using List.all_eq_true.1 List.all_takeWhile _ member
  have whole := List.takeWhile_append_dropWhile (p := (· != '"')) (l := rest)
  have stops := List.head?_dropWhile_not (· != '"') rest
  cases behind : rest.dropWhile (· != '"') with
  | nil =>
    rw [behind, List.append_nil] at whole
    rw [whole] at noQuote
    simpa [first, visible, behind] using Starts.loneQuote noQuote
  | cons c after =>
    rw [behind] at stops whole
    obtain rfl : c = '"' := by simpa using stops
    have starts : Starts ('"' :: (rest.takeWhile (· != '"') ++ '"' :: after))
        (.quoted (rest.takeWhile (· != '"'))) after := .quoted noQuote
    rw [whole] at starts
    simpa [first, visible, behind] using starts

theorem starts_first (c : Char) (rest : List Char) :
    Starts (c :: rest) (first c rest).1 (first c rest).2 := by
  by_cases blank : Text.isBlank c
  · simpa [first, blank] using Starts.blank blank
  by_cases hyphen : c = '-' ∧ excludes rest
  · obtain ⟨rfl, excluded⟩ := hyphen
    have visible : Text.isBlank '-' = false := by decide
    simpa [first, visible, excluded] using Starts.hyphen excluded
  by_cases quote : c = '"'
  · rw [quote]
    exact starts_quote rest
  · have inside : ∀ d ∈ c :: rest.takeWhile isWordChar, isWordChar d :=
      List.forall_mem_cons.2
        ⟨isWordChar_iff.2 ⟨by simpa using blank, quote⟩, List.all_eq_true.1 List.all_takeWhile⟩
    have maximal : ∀ d, (rest.dropWhile isWordChar).head? = some d → isWordChar d = false := by
      intro d head
      have stops := List.head?_dropWhile_not isWordChar rest
      rw [head] at stops
      exact stops
    have whole : (c :: rest.takeWhile isWordChar) ++ rest.dropWhile isWordChar = c :: rest := by
      rw [List.cons_append, List.takeWhile_append_dropWhile]
    have included : ∀ behind, (c :: rest.takeWhile isWordChar) ++ rest.dropWhile isWordChar =
        '-' :: behind → excludes behind = false := by
      rw [whole]
      rintro behind same
      obtain ⟨rfl, rfl⟩ := List.cons.inj same
      simpa using hyphen
    have starts := Starts.word (List.cons_ne_nil _ _) inside maximal included
    rw [whole] at starts
    simpa [first, blank, hyphen, quote] using starts

/-- A text is cut into the piece that it starts with and the pieces of what follows. -/
theorem Starts.pieces_eq (starts : Starts text piece rest) :
    Terms.pieces text = piece :: Terms.pieces rest := by
  have visible : Text.isBlank '"' = false ∧ Text.isBlank '-' = false := by decide
  cases starts with
  | blank isBlank => simp [pieces_cons, first, isBlank]
  | hyphen excluded => simp [pieces_cons, first, visible, excluded]
  | @word text _ notEmpty inside maximal included =>
    obtain ⟨c, others, rfl⟩ := List.exists_cons_of_ne_nil notEmpty
    obtain ⟨here, behind⟩ := List.forall_mem_cons.1 inside
    -- a hyphen in front would be a piece of its own if it excluded the rest
    have notHyphen : ¬(c = '-' ∧ excludes (others ++ rest)) := by
      rintro ⟨rfl, excluded⟩
      simp [included (others ++ rest) rfl] at excluded
    rw [List.cons_append, pieces_cons]
    simp [first, notHyphen, isWordChar_iff.1 here, Text.takeWhile_append behind maximal,
      Text.dropWhile_append behind maximal]
  | @quoted body rest noQuote =>
    have inside : ∀ c ∈ body, (c != '"') = true := fun c member =>
      bne_iff_ne.2 (ne_of_mem_of_not_mem member noQuote)
    have stops : ∀ c, ('"' :: rest).head? = some c → (c != '"') = false := by simp
    simp [pieces_cons, first, visible, Text.takeWhile_append inside stops,
      Text.dropWhile_append inside stops]
  | loneQuote noQuote =>
    have none : rest.dropWhile (· != '"') = [] :=
      List.dropWhile_eq_nil_iff.2 fun c member =>
        bne_iff_ne.2 (ne_of_mem_of_not_mem member noQuote)
    simp [pieces_cons, first, visible, none]

theorem cuts_pieces (text : List Char) : Cuts text (Terms.pieces text) := by
  -- a piece takes any number of characters, so the induction is on the length
  induction length : text.length using Nat.strongRecOn generalizing text with
  | ind n ih =>
    cases text with
    | nil =>
      rw [pieces_nil]
      exact .nil
    | cons c rest =>
      have shorter := first_shorter c rest
      rw [length] at shorter
      rw [pieces_cons]
      exact .cons (starts_first c rest) (ih _ shorter _ rfl)

/-- The pieces of a text are those of the rule. -/
theorem cuts_iff : Cuts text pieces ↔ Terms.pieces text = pieces := by
  constructor
  · intro cuts
    induction cuts with
    | nil => exact pieces_nil
    | cons starts _ ih => rw [starts.pieces_eq, ih]
  · rintro rfl
    exact cuts_pieces text

/-- Pieces make up the text that falls apart into them. -/
theorem Cuts.flatMap_source (cuts : Cuts text pieces) : pieces.flatMap Piece.source = text := by
  rw [← cuts_iff.1 cuts, flatMap_source_pieces]

theorem Cuts.exists_starts (cuts : Cuts text pieces) (member : piece ∈ pieces) :
    ∃ whole rest, Starts whole piece rest := by
  induction cuts with
  | nil => cases member
  | cons starts _ ih =>
    rcases List.mem_cons.1 member with rfl | behind
    · exact ⟨_, _, starts⟩
    · exact ih behind

/-- Nothing in a word is blank or a quote. -/
theorem of_word_mem {word : List Char} (member : .word word ∈ Terms.pieces text) :
    word ≠ [] ∧ ∀ c ∈ word, Text.isBlank c = false ∧ c ≠ '"' := by
  obtain ⟨whole, rest, starts⟩ := (cuts_pieces text).exists_starts member
  cases starts with
  | word notEmpty inside => exact ⟨notEmpty, fun c member => isWordChar_iff.1 (inside c member)⟩

/-- A word has something visible in it. -/
theorem not_allBlank_of_word_mem {word : List Char} (member : .word word ∈ Terms.pieces text) :
    ¬Text.allBlank word := by
  obtain ⟨notEmpty, inside⟩ := of_word_mem member
  obtain ⟨c, others, rfl⟩ := List.exists_cons_of_ne_nil notEmpty
  exact Text.not_allBlank_of_mem (.head _) (inside c (.head _)).1

end Rule

/-! ### Words as pieces -/

section Word

variable {c : Char} {word : List Char}

/-- A word that does not start with a hyphen is a piece of its own. -/
theorem pieces_word_append {rest : List Char} (notHyphen : c ≠ '-')
    (inside : ∀ d ∈ c :: word, isWordChar d)
    (stops : ∀ d, rest.head? = some d → isWordChar d = false) :
    pieces (c :: word ++ rest) = .word (c :: word) :: pieces rest := by
  refine (Starts.word (List.cons_ne_nil _ _) inside stops fun behind same => ?_).pieces_eq
  exact absurd (List.cons.inj same).1 notHyphen

/-- A hyphen in front of such a word excludes it. -/
theorem pieces_excluded (notHyphen : c ≠ '-') (inside : ∀ d ∈ c :: word, isWordChar d) :
    pieces ('-' :: c :: word) = [.hyphen, .word (c :: word)] := by
  have visible := (isWordChar_iff.1 (inside c (.head _))).1
  have hyphen : Starts ('-' :: c :: word) .hyphen (c :: word) :=
    .hyphen (by simp [excludes, visible, notHyphen])
  have behind : pieces (c :: word ++ []) = .word (c :: word) :: pieces [] :=
    pieces_word_append notHyphen inside (by simp)
  rw [List.append_nil, pieces_nil] at behind
  rw [hyphen.pieces_eq, behind]

end Word

section Items

variable {pieces : List Piece}

private theorem forall_mem_itemsFrom (holds : Token → Prop) {done : List Item} {excluded : Bool}
    (word : ∀ text, .word text ∈ pieces → holds (.term (String.ofList text)))
    (phrase : ∀ body, .quoted body ∈ pieces → Text.collapse body ≠ [] →
      holds (.phrase (String.ofList (Text.collapse body))))
    (earlier : ∀ item ∈ done, holds item.token) :
    ∀ item ∈ itemsFrom done excluded pieces, holds item.token := by
  induction pieces generalizing done excluded with
  | nil => simpa [itemsFrom] using earlier
  | cons piece pieces ih =>
    have behind {done : List Item} {excluded : Bool} (earlier : ∀ item ∈ done, holds item.token) :
        ∀ item ∈ itemsFrom done excluded pieces, holds item.token :=
      ih (fun text member => word text (.tail _ member))
        (fun body member => phrase body (.tail _ member)) earlier
    cases piece with
    | word text => exact behind (List.forall_mem_cons.2 ⟨word text (.head _), earlier⟩)
    | quoted body =>
      rw [itemsFrom]
      split
      · exact behind earlier
      · next notEmpty =>
        exact behind (List.forall_mem_cons.2
          ⟨phrase body (.head _) (by simpa using notEmpty), earlier⟩)
    | _ => exact behind earlier

/-- What holds of the words, and of the quotations with something in them, holds of the tokens of
all items. -/
theorem forall_mem_items (holds : Token → Prop)
    (word : ∀ text, .word text ∈ pieces → holds (.term (String.ofList text)))
    (phrase : ∀ body, .quoted body ∈ pieces → Text.collapse body ≠ [] →
      holds (.phrase (String.ofList (Text.collapse body)))) :
    ∀ item ∈ items pieces, holds item.token :=
  forall_mem_itemsFrom holds word phrase (by simp)

end Items

/-- Every item is a term or a phrase. -/
theorem items_carry (pieces : List Piece) :
    ∀ item ∈ items pieces, item.token.key? = some item.token.value :=
  forall_mem_items (fun token => token.key? = some token.value) (fun _ _ => rfl) (fun _ _ _ => rfl)

/-- Every item has something visible in it. -/
theorem items_visible (text : List Char) :
    ∀ item ∈ items (pieces text), ¬Text.allBlank item.token.value.toList := by
  refine forall_mem_items (fun token => ¬Text.allBlank token.value.toList)
    (fun word member => ?_) (fun body _ notEmpty => ?_)
  · rw [Token.value, String.toList_ofList]
    exact not_allBlank_of_word_mem member
  · rw [Token.value, String.toList_ofList]
    exact Text.not_allBlank_collapse notEmpty

theorem keys_tokens {items : List Item}
    (carry : ∀ item ∈ items, item.token.key? = some item.token.value) :
    (items.flatMap Item.tokens).filterMap Token.key? = items.map (·.token.value) := by
  induction items with
  | nil => rfl
  | cons item items ih =>
    obtain ⟨first, rest⟩ := List.forall_mem_cons.1 carry
    have here : item.tokens.filterMap Token.key? = [item.token.value] := by
      have noKey : Token.key? (.operator .not) = none := rfl
      rw [Item.tokens]
      cases item.excluded <;> simp [first, noKey]
    rw [List.flatMap_cons, List.filterMap_append, ih rest, here]
    rfl

theorem leaves_items (items : List Item) :
    (items.map Item.node).flatMap Node.leaves = items.map (·.token.value) := by
  induction items with
  | nil => rfl
  | cons item items ih =>
    have here : item.node.leaves = [item.token.value] := by
      unfold Item.node
      split <;> simp [Node.leaves]
    rw [List.map_cons, List.flatMap_cons, ih, here]
    rfl

/-- Only quotes without a partner are recorded; the other pieces are only passed. -/
theorem foldl_warn_of_notMem {pieces : List Piece} (noLone : Piece.loneQuote ∉ pieces)
    (start : Nat × List Warning) :
    pieces.foldl warn start =
      (start.1 + Text.byteLength (pieces.flatMap Piece.source), start.2) := by
  induction pieces generalizing start with
  | nil => rfl
  | cons piece pieces ih =>
    simp only [List.mem_cons, not_or] at noLone
    simp [ih noLone.2, warn, Ne.symm noLone.1, Nat.add_assoc]

theorem warnings_eq_nil {pieces : List Piece} (noLone : Piece.loneQuote ∉ pieces) :
    warnings pieces = [] := by
  rw [warnings, foldl_warn_of_notMem noLone]
  rfl

/-- A single quote without a partner is recorded where it stands. -/
theorem warnings_eq_singleton {earlier behind : List Piece} (noLone : Piece.loneQuote ∉ earlier)
    (noLone' : Piece.loneQuote ∉ behind) :
    warnings (earlier ++ .loneQuote :: behind) =
      [.unterminatedQuote (Text.byteLength (earlier.flatMap Piece.source))] := by
  rw [warnings, List.foldl_append, List.foldl_cons, foldl_warn_of_notMem noLone,
    foldl_warn_of_notMem noLone']
  simp [warn]

end SearchKeys.Terms
