/-
# Plain text

Plain text uses nothing that the keys language and the list of words and phrases treat in
different ways: its quotes come in pairs, there are no backslashes and no parentheses, no word is
an operator, and no word begins with a hyphen. What follows the first word or quotation of a plain
text is plain again.

## Main definitions

* `Text.outside`: what stands outside of the quotations of a text.
* `Text.Plain`: plain text.

## Main results

* `Text.Plain.blank_tail`, `Text.Plain.word_tail`, `Text.Plain.quotation_tail`: plain text can be
  read from the left.
-/

import SearchKeys.Token
import SearchKeys.Proofs.Text.Blank
import Mathlib.Algebra.Ring.Parity
import Mathlib.Data.List.Chain

namespace SearchKeys.Text

/-- What stands outside of the quotations, with a space for every quote, if the text begins inside
of one or not. -/
def outsideFrom (quoted : Bool) : List Char → List Char
  | [] => []
  | c :: rest =>
    if c = '"' then ' ' :: outsideFrom (!quoted) rest
    else if quoted then outsideFrom quoted rest
    else c :: outsideFrom quoted rest

/-- What stands outside of the quotations of a text, with a space for every quote. -/
def outside (text : List Char) : List Char :=
  outsideFrom false text

/-- Text without anything that is special outside of quotations but blanks, and with nothing in
its quotations that could be taken for special. -/
structure Plain (text : List Char) : Prop where
  /-- Every quotation is closed. -/
  closed : Even (text.count '"')
  noBackslash : '\\' ∉ text
  noOpenParen : '(' ∉ text
  noCloseParen : ')' ∉ text
  /-- No word outside of the quotations is an operator. -/
  noOperator : ∀ op : Operator, op.keyword.toList ∉ words (outside text)
  noHyphenFirst : text.head? ≠ some '-'
  noHyphenBehind :
    text.IsChain fun previous c => c = '-' → isBlank previous = false ∧ previous ≠ '"'

variable {c : Char} {text word body rest : List Char}

@[simp] theorem outside_nil : outside [] = [] := rfl

theorem outside_cons (notQuote : c ≠ '"') : outside (c :: text) = c :: outside text := by
  simp [outside, outsideFrom, notQuote]

theorem outside_append (noQuote : '"' ∉ word) : outside (word ++ rest) = word ++ outside rest := by
  induction word with
  | nil => rfl
  | cons c word ih =>
    obtain ⟨notQuote, others⟩ : '"' ≠ c ∧ '"' ∉ word := by simpa using noQuote
    rw [List.cons_append, outside_cons notQuote.symm, ih others, List.cons_append]

/-- Only the quotes of a quotation leave something. -/
theorem outside_quotation (noQuote : '"' ∉ body) :
    outside ('"' :: (body ++ '"' :: rest)) = ' ' :: ' ' :: outside rest := by
  have inside : outsideFrom true (body ++ '"' :: rest) = ' ' :: outside rest := by
    induction body with
    | nil => rfl
    | cons c body ih =>
      obtain ⟨notQuote, others⟩ : '"' ≠ c ∧ '"' ∉ body := by simpa using noQuote
      rw [List.cons_append, outsideFrom, if_neg notQuote.symm, if_pos rfl, ih others]
  rw [← inside]
  rfl

/-- A part at the end of a plain text is plain if no quotation and no word is cut there. -/
theorem Plain.of_append (text : List Char) (plain : Plain (text ++ rest))
    (whole : Even (text.count '"'))
    (fewer : ∀ word ∈ words (outside rest), word ∈ words (outside (text ++ rest)))
    (noHyphen : rest.head? ≠ some '-') : Plain rest where
  closed := by
    have both := plain.closed
    rw [List.count_append] at both
    exact (Nat.even_add.1 both).1 whole
  noBackslash := fun member => plain.noBackslash (List.mem_append_right _ member)
  noOpenParen := fun member => plain.noOpenParen (List.mem_append_right _ member)
  noCloseParen := fun member => plain.noCloseParen (List.mem_append_right _ member)
  noOperator := fun op member => plain.noOperator op (fewer _ member)
  noHyphenFirst := noHyphen
  noHyphenBehind := (List.isChain_append.1 plain.noHyphenBehind).2.1

/-- No hyphen stands behind a blank or a quote. -/
theorem Plain.noHyphen_of_ends (text : List Char) (plain : Plain (text ++ c :: rest))
    (ends : isBlank c ∨ c = '"') : rest.head? ≠ some '-' := by
  intro head
  obtain ⟨tail, rfl⟩ := List.head?_eq_some_iff.1 head
  have behind := (List.isChain_append.1 plain.noHyphenBehind).2.1
  obtain ⟨visible, notQuote⟩ := (List.isChain_cons_cons.1 behind).1 rfl
  rcases ends with blank | quote
  · simp [blank] at visible
  · exact notQuote quote

/-- Behind a blank a plain text goes on plainly. -/
theorem Plain.blank_tail (plain : Plain (c :: rest)) (blank : isBlank c) : Plain rest := by
  have notQuote : c ≠ '"' := by
    rintro rfl
    exact absurd blank (by decide)
  refine plain.of_append [c] (by simp [notQuote]) (fun word member => ?_)
    (plain.noHyphen_of_ends [] (.inl blank))
  rwa [List.singleton_append, outside_cons notQuote, words_blank_cons blank]

/-- Behind a word a plain text goes on plainly, and the word is no operator. -/
theorem Plain.word_tail (plain : Plain (word ++ rest)) (notEmpty : word ≠ [])
    (inside : ∀ c ∈ word, isBlank c = false ∧ c ≠ '"')
    (stops : ∀ c, rest.head? = some c → isBlank c ∨ c = '"') :
    Plain rest ∧ ∀ op : Operator, op.keyword.toList ≠ word := by
  have noQuote : '"' ∉ word := fun member => (inside _ member).2 rfl
  have stops' : ∀ c, (outside rest).head? = some c → isBlank c := by
    cases rest with
    | nil => simp
    | cons d rest =>
      rcases stops d rfl with blank | rfl
      · have notQuote : d ≠ '"' := by
          rintro rfl
          exact absurd blank (by decide)
        simpa [outside_cons notQuote] using blank
      · have space : isBlank ' ' = true := by decide
        simpa [outside, outsideFrom] using space
  have parts : words (outside (word ++ rest)) = word :: words (outside rest) := by
    rw [outside_append noQuote, words_append notEmpty (fun c member => (inside c member).1) stops']
  constructor
  · refine plain.of_append word (by simp [List.count_eq_zero_of_not_mem noQuote])
      (fun other member => ?_) fun head => ?_
    · rw [parts]
      exact .tail _ member
    · rcases stops _ head with blank | quote
      · exact absurd blank (by decide)
      · exact absurd quote (by decide)
  · rintro op rfl
    exact plain.noOperator op (by rw [parts]; exact .head _)

/-- Behind a quotation a plain text goes on plainly. -/
theorem Plain.quotation_tail (plain : Plain ('"' :: (body ++ '"' :: rest))) (noQuote : '"' ∉ body) :
    Plain rest := by
  have whole : '"' :: (body ++ '"' :: rest) = ('"' :: (body ++ ['"'])) ++ rest := by simp
  have pair : ('"' :: (body ++ ['"'])).count '"' = 2 := by
    simp [List.count_eq_zero_of_not_mem noQuote]
  have space : isBlank ' ' = true := by decide
  refine Plain.of_append ('"' :: (body ++ ['"'])) (whole ▸ plain) (by simp [pair])
    (fun word member => ?_) (plain.noHyphen_of_ends ('"' :: body) (.inr rfl))
  rwa [← whole, outside_quotation noQuote, words_blank_cons space, words_blank_cons space]

end SearchKeys.Text
