/-
# Texts that spell tokens

A text spells some tokens if cutting it gives these tokens and nothing to warn about, however
the keys go on behind it, as long as they do not go on in the middle of a word. Texts that
spell tokens can be put together, and that is how written queries are read.

## Main definitions

* `Token.EndsWord`: a word in front of the text ends there.
* `Token.Spells`: the text is cut into these tokens.
* `Token.Writable`: a key that can be written at all.

## Main results

* `Token.Spells.append`, `Token.Spells.cons`: texts are put together.
* `Token.spells_key`: a written key is one token.
-/

import SearchKeys.Query.Text
import SearchKeys.Proofs.Text.Blank
import SearchKeys.Proofs.Text.Joined
import SearchKeys.Proofs.Token.Phrase

namespace SearchKeys

namespace Segment

theorem isWordChar_iff {c : Char} :
    isWordChar c = true ↔ Text.isBlank c = false ∧ c ≠ '(' ∧ c ≠ ')' ∧ c ≠ '"' := by
  simp [isWordChar, and_assoc]

theorem first_blank {c : Char} (blank' : Text.isBlank c) (rest : List Char) :
    first c rest = (blank c, rest) := by
  simp [first, blank']

theorem first_openParen (rest : List Char) : first '(' rest = (openParen, rest) := by
  have visible : Text.isBlank '(' = false := by decide
  simp [first, visible]

theorem first_closeParen (rest : List Char) : first ')' rest = (closeParen, rest) := by
  have visible : Text.isBlank ')' = false := by decide
  simp [first, visible]

theorem first_quote (rest : List Char) :
    first '"' rest = match closeQuote? rest with
      | some (body, rest) => (quoted body, rest)
      | none => (loneQuote, rest) := by
  have visible : Text.isBlank '"' = false := by decide
  simp only [first, visible]
  rfl

theorem first_word {c : Char} (wordChar : isWordChar c) (rest : List Char) :
    first c rest = (word (c :: rest.takeWhile isWordChar), rest.dropWhile isWordChar) := by
  obtain ⟨visible, notOpen, notClose, notQuote⟩ := isWordChar_iff.1 wordChar
  simp [first, visible, notOpen, notClose, notQuote]

end Segment

namespace Token

open Segment (isWordChar)

/-- A word in front of the text ends where the text begins. -/
def EndsWord (text : List Char) : Prop :=
  ∀ c, text.head? = some c → isWordChar c = false

/-- Cutting the text gives these tokens and no lone quote, whatever stands behind it unless a
word goes on there. -/
def Spells (text : List Char) (tokens : List Token) : Prop :=
  ∀ rest, EndsWord rest → ∃ segments,
    Segment.ofText (text ++ rest) = segments ++ Segment.ofText rest ∧
    segments.filterMap Segment.token? = tokens ∧ Segment.loneQuote ∉ segments

theorem endsWord_nil : EndsWord [] := by
  simp [EndsWord]

theorem endsWord_cons {c : Char} {text : List Char} (outside : isWordChar c = false) :
    EndsWord (c :: text) := by
  simpa [EndsWord] using outside

/-- A text that ends a word still does so if another one that does follows it. -/
theorem EndsWord.append {text rest : List Char} (ends : EndsWord text) (ends' : EndsWord rest) :
    EndsWord (text ++ rest) := by
  cases text with
  | nil => exact ends'
  | cons c text => exact endsWord_cons (ends c rfl)

theorem spells_nil : Spells [] [] :=
  fun _ _ => ⟨[], rfl, rfl, by simp⟩

section Spells

variable {text text' : List Char} {tokens tokens' : List Token}

/-- Texts can be joined where the second one ends the words of the first. -/
theorem Spells.append (first : Spells text tokens) (second : Spells text' tokens')
    (boundary : EndsWord text') : Spells (text ++ text') (tokens ++ tokens') := by
  intro rest ends
  obtain ⟨segments, cut, tokens_eq, noLone⟩ := first _ (boundary.append ends)
  obtain ⟨segments', cut', tokens_eq', noLone'⟩ := second rest ends
  refine ⟨segments ++ segments', by simp [cut, cut'], ?_, by simp [noLone, noLone']⟩
  rw [List.filterMap_append, tokens_eq, tokens_eq']

/-- A character that is a segment of its own can stand in front of any text. -/
theorem Spells.cons {c : Char} {segment : Segment}
    (alone : ∀ rest, Segment.first c rest = (segment, rest))
    (noLone : segment ≠ .loneQuote) (behind : Spells text tokens) :
    Spells (c :: text) (segment.token?.toList ++ tokens) := by
  intro rest ends
  obtain ⟨segments, cut, tokens_eq, noLone'⟩ := behind rest ends
  refine ⟨segment :: segments, ?_, ?_, by simp [noLone.symm, noLone']⟩
  · rw [List.cons_append, Segment.ofText_cons, alone, cut, List.cons_append]
  · rw [List.filterMap_cons, tokens_eq]
    cases segment.token? <;> rfl

theorem Spells.blank_cons (behind : Spells text tokens) : Spells (' ' :: text) tokens :=
  behind.cons (Segment.first_blank (by decide)) (by simp)

theorem Spells.openParen_cons (behind : Spells text tokens) :
    Spells ('(' :: text) (.openParen :: tokens) :=
  behind.cons Segment.first_openParen (by simp)

theorem spells_closeParen : Spells [')'] [.closeParen] :=
  spells_nil.cons Segment.first_closeParen (by simp)

/-- What a text spells, if its keys end there. -/
theorem Spells.scan (spells : Spells text tokens) : Token.scan text = (tokens, []) := by
  obtain ⟨segments, cut, tokens_eq, noLone⟩ := spells [] endsWord_nil
  have segments_eq : Segment.ofText text = segments := by simpa using cut
  have noWarning (start : Nat) (segments : List Segment) (noLone : Segment.loneQuote ∉ segments) :
      (segments.foldl Segment.warn (start, [])).2 = [] := by
    induction segments generalizing start with
    | nil => rfl
    | cons segment segments ih =>
      simp only [List.mem_cons, not_or] at noLone
      simpa [Segment.warn, Ne.symm noLone.1] using ih _ noLone.2
  simp [Token.scan, segments_eq, tokens_eq, Segment.warnings, noWarning 0 segments noLone]

/-- What a text spells is read first, if the keys behind it do not go on with its last word. -/
theorem ofText_append_of_spells {rest : List Char} (spells : Spells text tokens)
    (ends : EndsWord rest) : ofText (text ++ rest) = tokens ++ ofText rest := by
  obtain ⟨segments, cut, rfl, -⟩ := spells rest ends
  simp [ofText, scan, cut]

end Spells

/-! ### Words and phrases -/

/-- A word is one segment if it ends where the text behind it begins. -/
theorem segments_word_append {text rest : List Char} (notEmpty : text ≠ [])
    (inside : ∀ c ∈ text, isWordChar c) (ends : EndsWord rest) :
    Segment.ofText (text ++ rest) = .word text :: Segment.ofText rest := by
  obtain ⟨c, text, rfl⟩ := List.exists_cons_of_ne_nil notEmpty
  obtain ⟨first, others⟩ := List.forall_mem_cons.1 inside
  rw [List.cons_append, Segment.ofText_cons, Segment.first_word first,
    Text.takeWhile_append others ends, Text.dropWhile_append others ends]

/-- A word is one token. -/
theorem spells_word (text : List Char) (notEmpty : text ≠ [])
    (inside : ∀ c ∈ text, isWordChar c) :
    Spells text [Segment.wordToken (String.ofList text)] := by
  intro rest ends
  exact ⟨[.word text], segments_word_append notEmpty inside ends, rfl, by simp⟩

theorem spells_operator (operator : Operator) :
    Spells operator.keyword.toList [.operator operator] := by
  have letters : operator.keyword.toList.all isWordChar := by cases operator <;> decide
  have word := spells_word operator.keyword.toList (by cases operator <;> decide)
    (List.all_eq_true.1 letters)
  rwa [Segment.wordToken, String.ofList_toList,
    Operator.ofKeyword?_eq_some_iff.2 rfl] at word

/-- A quoted text with something visible in it is one phrase, unless it ends in a backslash. -/
theorem spells_quote {text : String} (visible : ¬Text.allBlank text.toList)
    (closed : ¬Segment.EndsOpen text.toList) : Spells (quote text).toList [.phrase text] := by
  intro rest _
  have cut : Segment.closeQuote? (text.toList.flatMap phraseChar ++ '"' :: rest) =
      some (text.toList.flatMap phraseChar, rest) := Segment.closeQuote?_written closed
  refine ⟨[.quoted (text.toList.flatMap phraseChar)], ?_, ?_, by simp⟩
  · rw [quote, String.toList_ofList, List.cons_append, List.cons_append, Segment.ofText_cons,
      List.append_assoc, Segment.first_quote, List.singleton_append, cut]
    rfl
  · simp [Segment.token?, Segment.unescape_written, visible]

/-! ### Keys -/

/-- A key that is read back when it is written: if it has to stand in quotes, something in it
is visible and it does not end in a backslash. -/
def Writable (text : String) : Prop :=
  needsQuotes text → ¬Text.allBlank text.toList ∧ ¬Segment.EndsOpen text.toList

/-- The token that a key is written as. -/
def ofKey (text : String) : Token :=
  if needsQuotes text then .phrase text else .term text

@[simp] theorem key?_ofKey (text : String) : (ofKey text).key? = some text := by
  unfold ofKey
  split <;> rfl

theorem needsQuotes_eq_false_iff {text : String} :
    needsQuotes text = false ↔
      text ≠ "" ∧ (∀ c ∈ text.toList, isWordChar c) ∧ Operator.ofKeyword? text = none := by
  simp [needsQuotes, Segment.isWordChar, and_assoc]

/-- A written key is one token. -/
theorem spells_key {text : String} (writable : Writable text) :
    Spells (quoteIfNeeded text).toList [ofKey text] := by
  unfold quoteIfNeeded ofKey
  split
  · next quotes => exact spells_quote (writable quotes).1 (writable quotes).2
  · next bare =>
    obtain ⟨notEmpty, inside, noKeyword⟩ := needsQuotes_eq_false_iff.1 (by simpa using bare)
    have word := spells_word text.toList (by simpa using notEmpty) inside
    rwa [Segment.wordToken, String.ofList_toList, noKeyword] at word

end Token

end SearchKeys
