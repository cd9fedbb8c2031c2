/-
# Quoted phrases

A quotation is closed by the first quote that does not follow immediately on a backslash. Writing
a phrase puts a backslash in front of its double quotes; reading it takes these backslashes away
again. That works for every text that does not end in a backslash, because a backslash at the
end would escape the closing quote. No phrase that was read ends in one.

## Main definitions

* `Segment.EndsOpen`: a text ends in a backslash.
* `Segment.AllEscaped`, `Segment.Closes`: a text in which no quotation ends, and one behind which
  it does.

## Main results

* `Segment.closeQuote?_eq_some_iff`, `Segment.closeQuote?_eq_none_iff`: where a quotation ends.
* `Segment.closeQuote?_written`: a written phrase ends at its closing quote.
* `Segment.unescape_written`, `Segment.written_unescape`: the body of a written phrase stands for
  the text that was written, and the body of a closed quotation is what its text is written as.
* `Segment.not_endsOpen_unescape`: what a closed quotation stands for does not end in a
  backslash.
-/

import SearchKeys.Token.Segment
import Mathlib.Data.List.Basic

namespace SearchKeys.Segment

/-- A text ends in a backslash, which would escape a quote behind it. -/
def EndsOpen (text : List Char) : Prop :=
  text.getLast? = some '\\'

theorem not_endsOpen_nil : ¬EndsOpen [] := by
  simp [EndsOpen]

theorem endsOpen_cons_iff {c : Char} {text : List Char} :
    EndsOpen (c :: text) ↔ if text = [] then c = '\\' else EndsOpen text := by
  cases text <;> simp [EndsOpen]

/-! ### Where a quotation ends -/

section Quotation

variable {c : Char} {text body rest : List Char}

/-- Every quote in the text follows immediately on a backslash of the text. -/
def AllEscaped (text : List Char) : Prop :=
  ∀ before after, text = before ++ '"' :: after → EndsOpen before

/-- A quote behind the text is the first one that does not follow immediately on a backslash. -/
def Closes (body : List Char) : Prop :=
  AllEscaped body ∧ ¬EndsOpen body

theorem EndsOpen.cons (opens : EndsOpen text) : EndsOpen (c :: text) := by
  have notEmpty : text ≠ [] := by
    rintro rfl
    exact not_endsOpen_nil opens
  simpa [endsOpen_cons_iff, notEmpty] using opens

theorem allEscaped_nil : AllEscaped [] := by
  simp [AllEscaped]

theorem allEscaped_cons_iff :
    AllEscaped (c :: text) ↔
      c ≠ '"' ∧ ∀ before after, text = before ++ '"' :: after → EndsOpen (c :: before) := by
  constructor
  · intro escaped
    refine ⟨?_, fun before after parts => escaped (c :: before) after (by rw [parts]; rfl)⟩
    rintro rfl
    exact not_endsOpen_nil (escaped [] text rfl)
  · rintro ⟨notQuote, behind⟩ (_ | ⟨first, before⟩) after parts
    · exact absurd (List.cons.inj parts).1 notQuote
    · obtain ⟨rfl, rest⟩ := List.cons.inj parts
      exact behind before after rest

theorem allEscaped_pair : AllEscaped ('\\' :: '"' :: text) ↔ AllEscaped text := by
  rw [allEscaped_cons_iff]
  constructor
  · rintro ⟨-, behind⟩ before after rfl
    -- right behind the pair a quote would follow on the quote of the pair
    have opens : before ≠ [] ∧ EndsOpen before := by
      simpa [endsOpen_cons_iff] using behind ('"' :: before) after rfl
    exact opens.2
  · intro escaped
    refine ⟨by decide, ?_⟩
    rintro (_ | ⟨first, before⟩) after parts
    · rfl
    · exact (escaped before after (List.cons.inj parts).2).cons.cons

theorem allEscaped_cons (notQuote : c ≠ '"')
    (single : ∀ tail, c = '\\' → text = '"' :: tail → False) :
    AllEscaped (c :: text) ↔ AllEscaped text := by
  rw [allEscaped_cons_iff]
  constructor
  · rintro ⟨-, behind⟩ before after rfl
    have opens := behind before after rfl
    rw [endsOpen_cons_iff] at opens
    split at opens
    · next empty => exact (single after opens (by rw [empty]; rfl)).elim
    · exact opens
  · exact fun escaped => ⟨notQuote, fun before after parts => (escaped before after parts).cons⟩

/-- A text that closes goes on no further than another one that closes. -/
private theorem Closes.eq_of_append {body' more behind behind' : List Char}
    (closes : Closes body) (closes' : Closes body') (longer : body' = body ++ more)
    (same : '"' :: behind = more ++ '"' :: behind') : body = body' := by
  cases more with
  | nil => simpa using longer.symm
  | cons c more =>
    -- the longer one would contain the closing quote of the shorter one
    obtain ⟨rfl, -⟩ := List.cons.inj same
    exact absurd (closes'.1 body more longer) closes.2

/-- A quotation is closed in one place at most. -/
theorem Closes.unique {body' rest' : List Char} (closes : Closes body) (closes' : Closes body')
    (same : body ++ '"' :: rest = body' ++ '"' :: rest') : body = body' ∧ rest = rest' := by
  have bodies : body = body' := by
    rcases List.append_eq_append_iff.1 same with ⟨more, longer, behind⟩ | ⟨more, longer, behind⟩
    · exact closes.eq_of_append closes' longer behind
    · exact (closes'.eq_of_append closes longer behind).symm
  subst bodies
  simpa using same

theorem closeQuoteFrom?_eq_none_iff (done text : List Char) :
    closeQuoteFrom? done text = none ↔ AllEscaped text := by
  fun_induction closeQuoteFrom? done text with
  | case1 => simpa using allEscaped_nil
  | case2 done rest => simp [allEscaped_cons_iff]
  | case3 done rest ih => rw [ih, allEscaped_pair]
  | case4 done c rest notQuote single ih => rw [ih, allEscaped_cons notQuote single]

theorem closeQuoteFrom?_closes {done : List Char}
    (closed : closeQuoteFrom? done text = some (body, rest)) :
    ∃ read, body = done.reverse ++ read ∧ text = read ++ '"' :: rest ∧ Closes read := by
  fun_induction closeQuoteFrom? done text with
  | case1 => cases closed
  | case2 done text =>
    obtain ⟨rfl, rfl⟩ : done.reverse = body ∧ text = rest := by simpa using closed
    exact ⟨[], by simp, rfl, allEscaped_nil, not_endsOpen_nil⟩
  | case3 done text ih =>
    obtain ⟨read, rfl, rfl, escaped, notOpen⟩ := ih closed
    refine ⟨'\\' :: '"' :: read, by simp, rfl, allEscaped_pair.2 escaped, ?_⟩
    simpa [endsOpen_cons_iff] using fun _ => notOpen
  | case4 done c text notQuote single ih =>
    obtain ⟨read, rfl, rfl, escaped, notOpen⟩ := ih closed
    refine ⟨c :: read, by simp, rfl, (allEscaped_cons notQuote ?_).2 escaped, ?_⟩
    · rintro tail isBackslash rfl
      exact single _ isBackslash rfl
    · rw [endsOpen_cons_iff]
      split
      · next empty =>
        subst empty
        exact fun isBackslash => single _ isBackslash rfl
      · exact notOpen

/-- A quotation is never closed if all later quotes follow on backslashes. -/
theorem closeQuote?_eq_none_iff : closeQuote? text = none ↔ AllEscaped text :=
  closeQuoteFrom?_eq_none_iff [] text

/-- A quotation is closed by the first later quote that does not follow on a backslash. -/
theorem closeQuote?_eq_some_iff :
    closeQuote? text = some (body, rest) ↔ text = body ++ '"' :: rest ∧ Closes body := by
  constructor
  · intro closed
    obtain ⟨read, rfl, parts, closes⟩ := closeQuoteFrom?_closes closed
    exact ⟨parts, closes⟩
  · rintro ⟨rfl, closes⟩
    cases closed : closeQuote? (body ++ '"' :: rest) with
    | none => exact absurd (closeQuote?_eq_none_iff.1 closed body rest rfl) closes.2
    | some cut =>
      obtain ⟨body', rest'⟩ := cut
      obtain ⟨read, rfl, parts, closes'⟩ := closeQuoteFrom?_closes closed
      obtain ⟨rfl, rfl⟩ := closes.unique closes' parts
      rfl

end Quotation

/-! ### Phrases that are written -/

section Written

variable {c : Char} {text body rest : List Char}

/-- What is written for a text never starts with a quote. -/
theorem written_ne_quote {tail : List Char} :
    text.flatMap Token.phraseChar ≠ '"' :: tail := by
  cases text with
  | nil => simp
  | cons c text =>
    by_cases quote : c = '"' <;> simp [Token.phraseChar, quote]

theorem written_eq_nil_iff : text.flatMap Token.phraseChar = [] ↔ text = [] := by
  cases text with
  | nil => simp
  | cons c text =>
    by_cases quote : c = '"' <;> simp [Token.phraseChar, quote]

theorem flatMap_phraseChar_cons (notQuote : c ≠ '"') :
    (c :: text).flatMap Token.phraseChar = c :: text.flatMap Token.phraseChar := by
  simp [Token.phraseChar, notQuote]

theorem flatMap_phraseChar_quote :
    ('"' :: text).flatMap Token.phraseChar = '\\' :: '"' :: text.flatMap Token.phraseChar := by
  simp [Token.phraseChar]

/-- Every quote of a written phrase has its backslash. -/
theorem allEscaped_written (text : List Char) : AllEscaped (text.flatMap Token.phraseChar) := by
  induction text with
  | nil => exact allEscaped_nil
  | cons c text ih =>
    by_cases quote : c = '"'
    · rw [quote, flatMap_phraseChar_quote]
      exact allEscaped_pair.2 ih
    · rw [flatMap_phraseChar_cons quote]
      exact (allEscaped_cons quote fun _ _ => written_ne_quote).2 ih

/-- A written phrase ends in a backslash if the text does. -/
theorem endsOpen_written_iff : EndsOpen (text.flatMap Token.phraseChar) ↔ EndsOpen text := by
  induction text with
  | nil => rfl
  | cons c text ih =>
    by_cases quote : c = '"'
    · rw [quote, flatMap_phraseChar_quote, endsOpen_cons_iff, if_neg (List.cons_ne_nil _ _)]
      simp only [endsOpen_cons_iff, written_eq_nil_iff, ih]
    · rw [flatMap_phraseChar_cons quote]
      simp only [endsOpen_cons_iff, written_eq_nil_iff, ih]

/-- A written phrase is closed by its closing quote, whatever follows it. -/
theorem closeQuote?_written (closed : ¬EndsOpen text) :
    closeQuote? (text.flatMap Token.phraseChar ++ '"' :: rest) =
      some (text.flatMap Token.phraseChar, rest) :=
  closeQuote?_eq_some_iff.2
    ⟨rfl, allEscaped_written text, fun opens => closed (endsOpen_written_iff.1 opens)⟩

/-- The body of a written phrase stands for the text. -/
theorem unescape_written : unescape (text.flatMap Token.phraseChar) = text := by
  induction text with
  | nil => rfl
  | cons c text ih =>
    by_cases quote : c = '"'
    · rw [quote, flatMap_phraseChar_quote, unescape_escaped, ih]
    · rw [flatMap_phraseChar_cons quote, unescape_cons _ _ fun _ _ => written_ne_quote, ih]

/-- A body whose quotes all have backslashes is what its text is written as. -/
theorem written_unescape (escaped : AllEscaped body) :
    (unescape body).flatMap Token.phraseChar = body := by
  induction [], body using unescapeFrom.induct with
  | case1 => rfl
  | case2 _ body ih =>
    rw [unescape_escaped, flatMap_phraseChar_quote, ih (allEscaped_pair.1 escaped)]
  | case3 _ c body single ih =>
    have notQuote := (allEscaped_cons_iff.1 escaped).1
    rw [unescape_cons _ _ single, flatMap_phraseChar_cons notQuote,
      ih ((allEscaped_cons notQuote single).1 escaped)]

theorem quote_mem_written_iff : '"' ∈ text.flatMap Token.phraseChar ↔ '"' ∈ text := by
  induction text with
  | nil => rfl
  | cons c text ih =>
    by_cases quote : c = '"'
    · rw [quote, flatMap_phraseChar_quote]
      simp
    · rw [flatMap_phraseChar_cons quote, List.mem_cons, List.mem_cons, ih]

/-- If a written phrase ends in a backslash, its closing quote is read as a part of it. -/
theorem Closes.exists_of_endsOpen {rest' : List Char} (closes : Closes body)
    (opens : EndsOpen text)
    (parts : text.flatMap Token.phraseChar ++ '"' :: rest = body ++ '"' :: rest') :
    ∃ more, body = text.flatMap Token.phraseChar ++ '"' :: more := by
  have written := endsOpen_written_iff.2 opens
  rcases List.append_eq_append_iff.1 parts with
    ⟨_ | ⟨c, more⟩, longer, behind⟩ | ⟨_ | ⟨c, more⟩, shorter, behind⟩
  · rw [longer, List.append_nil] at closes
    exact absurd written closes.2
  · obtain ⟨rfl, -⟩ := List.cons.inj behind
    exact ⟨more, longer⟩
  · rw [shorter, List.append_nil] at written
    exact absurd written closes.2
  · -- the body would end at a quote that has its backslash
    obtain ⟨rfl, -⟩ := List.cons.inj behind
    exact absurd (allEscaped_written text body more shorter) closes.2

/-- What a closed quotation stands for does not end in a backslash. -/
theorem not_endsOpen_unescape (closes : Closes body) : ¬EndsOpen (unescape body) := by
  rw [← endsOpen_written_iff, written_unescape closes.1]
  exact closes.2

end Written

end SearchKeys.Segment
