/-
# Strings are read back

Every text can be written as a TOML string, and reading the string gives the text. A text may
have quotes of the kind that closes its string, even at its very end: behind the opening quotes
too few of them stand in a row to close it, and the quotes directly in front of the closing ones
are counted back into the text.

## Main definitions

* `Toml.Quoting.leading`: the number of quotes that a text begins with.
* `Toml.Quoting.Means`: what stands between the quotes of a string, and the text that it means.

## Main results

* `Toml.Quoting.Means.readFrom?_eq`: what means a text is read as that text.
* `Toml.Quoting.means_body`: what is written for a text means it.
* `Toml.string?_write`: a string that is written is read back.
-/

import SearchKeys.Toml.Quoting.Read
import SearchKeys.Toml.Quoting.Write
import Mathlib.Data.List.Basic

namespace SearchKeys.Toml

namespace Quoting

variable {form : Quoting} {c : Char} {done written text rest : List Char}

/-! ### Quotes in a row -/

/-- The number of quotes of the form that a text begins with. -/
def leading (form : Quoting) (text : List Char) : Nat :=
  (text.takeWhile (· == form.quote)).length

@[simp] theorem leading_nil : form.leading [] = 0 := rfl

@[simp] theorem leading_quote_cons : form.leading (form.quote :: text) = form.leading text + 1 := by
  simp [leading]

theorem leading_cons_of_ne (notQuote : c ≠ form.quote) : form.leading (c :: text) = 0 := by
  simp [leading, notQuote]

/-- As many quotes in a row as a string has on each side. -/
theorem leading_delimiter (stops : rest.head? ≠ some form.quote) :
    form.leading (form.delimiter ++ rest) = form.delimiter.length := by
  have none : form.leading rest = 0 := by
    cases rest with
    | nil => rfl
    | cons c rest => exact leading_cons_of_ne fun same => stops (by rw [same]; rfl)
  cases form <;> simp_all [delimiter, leading, quote, multiline]

/-- In front of the closing quotes, either the run of quotes ends before them or they go on with
it. -/
theorem leading_append_delimiter (written : List Char) (stops : rest.head? ≠ some form.quote) :
    form.leading (written ++ (form.delimiter ++ rest)) = form.leading written ∨
      form.leading (written ++ (form.delimiter ++ rest)) =
        form.leading written + form.delimiter.length := by
  induction written with
  | nil => exact .inr (by simp [leading_delimiter stops])
  | cons c written ih =>
    by_cases quote : c = form.quote
    · subst quote
      rw [List.cons_append, leading_quote_cons, leading_quote_cons]
      omega
    · rw [List.cons_append, leading_cons_of_ne quote, leading_cons_of_ne quote]
      exact .inl rfl

theorem length_delimiter : form.delimiter.length = if form.multiline then 3 else 1 := by
  rw [delimiter, List.length_replicate]

/-- Fewer quotes than a string has on each side do not close it. -/
theorem ending?_eq_none (few : form.leading text < form.delimiter.length) :
    form.ending? text = none := by
  rw [leading, length_delimiter] at few
  rw [ending?]
  split at few
  · rw [if_pos ‹_›, if_pos few]
  · rw [if_neg ‹_›, if_pos (by simpa using few)]

/-- Up to two quotes in front of the closing three belong to the text. -/
theorem ending?_eq_some (multiline : form.multiline) (enough : 3 ≤ form.leading text)
    (few : form.leading text ≤ 5) :
    form.ending? text =
      some (List.replicate (form.leading text - 3) form.quote,
        text.drop (form.leading text)) := by
  have own : min (form.leading text - 3) 2 = form.leading text - 3 := by omega
  rw [leading] at enough few own ⊢
  rw [ending?, if_pos multiline, if_neg (by omega), own]
  simp only [Nat.sub_add_cancel enough]

/-- The closing quotes end a string. -/
theorem ending?_delimiter (stops : rest.head? ≠ some form.quote) :
    form.ending? (form.delimiter ++ rest) = some ([], rest) := by
  have count := leading_delimiter stops
  by_cases multiline : form.multiline
  · have three : form.delimiter.length = 3 := by rw [length_delimiter, if_pos multiline]
    rw [ending?_eq_some multiline (by omega) (by omega), count, List.drop_left]
    simp [three]
  · have one : form.delimiter = [form.quote] := by simp [delimiter, multiline]
    rw [one]
    simp [ending?, multiline]

/-! ### Reading a string to its end -/

theorem readFrom?_of_ending {own : List Char} (ends : form.ending? text = some (own, rest)) :
    form.readFrom? done text = some (String.ofList (done.reverse ++ own), rest) := by
  rw [readFrom?]
  simp [ends]

theorem readFrom?_of_piece (goesOn : form.ending? text = none)
    (reads : form.piece? text = some ([c], rest)) :
    form.readFrom? done text = form.readFrom? (c :: done) rest := by
  rw [readFrom?]
  simp only [goesOn]
  split
  · simp_all
  · next meaning rest' read =>
    obtain ⟨rfl, rfl⟩ : [c] = meaning ∧ rest = rest' := by simpa [reads] using read
    rfl

theorem piece?_quote : form.piece? (form.quote :: rest) = some ([form.quote], rest) := by
  cases form <;> rfl

/-- A quote of the text is read as such, in front of the closing quotes too. -/
theorem readFrom?_quote_cons (multiline : form.multiline) (few : form.leading text < 5)
    (others : form.leading text ≠ 2) :
    form.readFrom? done (form.quote :: text) = form.readFrom? (form.quote :: done) text := by
  have one : form.leading (form.quote :: text) = form.leading text + 1 := leading_quote_cons
  -- fewer than three in a row do not end the string; more do, and then this one is of the text
  by_cases goesOn : form.leading text < 2
  · refine readFrom?_of_piece (ending?_eq_none ?_) piece?_quote
    rw [one, length_delimiter, if_pos multiline]
    omega
  · have ends := ending?_eq_some multiline (by omega : 3 ≤ form.leading (form.quote :: text))
      (by omega)
    have ends' := ending?_eq_some multiline (by omega : 3 ≤ form.leading text) (by omega)
    rw [one, List.drop_succ_cons, Nat.sub_add_comm (by omega), List.replicate_succ] at ends
    rw [readFrom?_of_ending ends, readFrom?_of_ending ends', List.reverse_cons,
      List.append_assoc, List.singleton_append]

/-- What stands between the quotes of a string means a text. -/
inductive Means (form : Quoting) : List Char → List Char → Prop
  | nil : Means form [] []
  /-- A quote that is not escaped, with not more than two of them in a row. -/
  | quote {written text : List Char} (multiline : form.multiline)
      (few : form.leading (form.quote :: written) ≤ 2) (behind : Means form written text) :
      Means form (form.quote :: written) (form.quote :: text)
  /-- An escape, or a character that stands for itself. -/
  | piece {first c : Char} {others written text : List Char} (notQuote : first ≠ form.quote)
      (reads : ∀ rest, form.piece? (first :: (others ++ rest)) = some ([c], rest))
      (behind : Means form written text) :
      Means form (first :: (others ++ written)) (c :: text)

/-- What means a text is read as that text, up to the closing quotes. -/
theorem Means.readFrom?_eq (means : Means form written text)
    (stops : rest.head? ≠ some form.quote) :
    form.readFrom? done (written ++ (form.delimiter ++ rest)) =
      some (String.ofList (done.reverse ++ text), rest) := by
  induction means generalizing done with
  | nil => exact readFrom?_of_ending (ending?_delimiter stops)
  | @quote written text multiline few _ ih =>
    -- the quotes in a row are few, or the closing ones are in the same row: then there are four
    -- or five with this one, which are the closing ones and one or two of the text
    have runs := leading_append_delimiter written stops
    rw [leading_quote_cons] at few
    rw [length_delimiter, if_pos multiline] at runs
    rw [List.cons_append, readFrom?_quote_cons multiline (by omega) (by omega), ih]
    simp
  | @piece first c others written text notQuote reads _ ih =>
    have goesOn : form.ending? (first :: (others ++ (written ++ (form.delimiter ++ rest)))) =
        none := by
      refine ending?_eq_none ?_
      rw [leading_cons_of_ne notQuote, length_delimiter]
      split <;> decide
    rw [List.cons_append, List.append_assoc, readFrom?_of_piece goesOn (reads _), ih]
    simp

/-! ### What is written between quotes -/

theorem piece?_plain (plain : isPlain c) (noEscape : form.escapes → c ≠ '\\') :
    form.piece? (c :: rest) = some ([c], rest) := by
  have notEscape : ¬(c = '\\' ∧ form.escapes) := fun both => noEscape both.2 both.1
  rw [piece?, if_neg notEscape, if_pos plain]

theorem piece?_feed (multiline : form.multiline) :
    form.piece? ('\n' :: rest) = some (['\n'], rest) := by
  have notEscape : ¬('\n' = '\\' ∧ form.escapes) := by simp
  rw [piece?, if_neg notEscape, if_neg (by decide), if_pos multiline]
  rfl

theorem piece?_escaped (escapes : form.escapes) {text : List Char}
    (means : escaped? text = some (c, rest)) :
    form.piece? ('\\' :: text) = some ([c], rest) := by
  rw [piece?, if_pos ⟨rfl, escapes⟩, means]

/-- The controls are few. -/
theorem toNat_lt_of_isControl (control : isControl c) : c.toNat < 128 := by
  have notPlain : isPlain c = false := by
    rw [isControl, Bool.and_eq_true, Bool.not_eq_true'] at control
    exact control.1
  simp [isPlain] at notPlain
  omega

theorem fourHexDigits_spec : ∀ number < 128,
    (fourHexDigits number).length = 4 ∧ (fourHexDigits number).all isHexDigit ∧
      valueOf 16 (fourHexDigits number) = number := by
  decide

/-- A control is read by its number. -/
theorem escaped?_control (control : isControl c) :
    escaped? ('u' :: (fourHexDigits c.toNat ++ rest)) = some (c, rest) := by
  have small := toNat_lt_of_isControl control
  obtain ⟨length, digits, value⟩ := fourHexDigits_spec c.toNat small
  have valid : c.toNat.isValidChar := .inl (by omega)
  have number : escaped? ('u' :: (fourHexDigits c.toNat ++ rest)) =
      numberedChar? 4 (fourHexDigits c.toNat ++ rest) := rfl
  rw [number, numberedChar?, List.take_left' length, List.drop_left' length, value,
    if_pos ⟨length, digits, valid⟩, Char.ofNat_toNat]

theorem quote_of_escapes (escapes : form.escapes) : form.quote = '"' := by
  cases form <;> first | rfl | cases escapes

/-- A character that is no quote is written as one piece. -/
theorem exists_piece_of_ne_quote (escapes : form.escapes) (notQuote : c ≠ '"') :
    ∃ first others, escapedChar form c = first :: others ∧ first ≠ form.quote ∧
      ∀ rest, form.piece? (first :: (others ++ rest)) = some ([c], rest) := by
  have backslash : '\\' ≠ form.quote := by
    rw [quote_of_escapes escapes]
    decide
  have escape {name : List Char} (means : ∀ rest, escaped? (name ++ rest) = some (c, rest)) :
      ∃ first others, '\\' :: name = first :: others ∧ first ≠ form.quote ∧
        ∀ rest, form.piece? (first :: (others ++ rest)) = some ([c], rest) :=
    ⟨_, _, rfl, backslash, fun rest => piece?_escaped escapes (means rest)⟩
  rw [← quote_of_escapes escapes] at notQuote
  unfold escapedChar
  split_ifs with isBack isTab isPage isReturn isBackslash isFeed multiline control
  · exact escape fun _ => by rw [isBack]; rfl
  · exact escape fun _ => by rw [isTab]; rfl
  · exact escape fun _ => by rw [isPage]; rfl
  · exact escape fun _ => by rw [isReturn]; rfl
  · exact escape fun _ => by rw [isBackslash]; rfl
  · subst isFeed
    exact ⟨_, _, rfl, notQuote, fun _ => piece?_feed multiline⟩
  · exact escape fun _ => by rw [isFeed]; rfl
  · exact escape fun _ => escaped?_control control
  · have plain : isPlain c := by simpa [isControl, isFeed] using control
    exact ⟨_, _, rfl, notQuote, fun _ => piece?_plain plain fun _ => isBackslash⟩

/-- Between double quotes, at most two quotes are in a row without an escape. -/
theorem leading_escapedAfter_le (escapes : form.escapes) {run : Nat} (few : run ≤ 2) :
    form.leading (escapedAfter form run text) + run ≤ 2 := by
  have quote_eq := quote_of_escapes escapes
  induction text generalizing run with
  | nil => simpa [escapedAfter] using few
  | cons c text ih =>
    rw [escapedAfter]
    split
    · split
      · next another =>
        have behind := ih (by omega : run + 1 ≤ 2)
        rw [← quote_eq, leading_quote_cons]
        omega
      · rw [leading_cons_of_ne (by rw [quote_eq]; decide)]
        omega
    · next notQuote =>
      obtain ⟨first, others, parts, notQuote', -⟩ := exists_piece_of_ne_quote escapes notQuote
      rw [parts, List.cons_append, leading_cons_of_ne notQuote']
      omega

/-- What is written between double quotes means the text. -/
theorem means_escapedAfter (escapes : form.escapes) (run : Nat) :
    form.Means (escapedAfter form run text) text := by
  have quote_eq := quote_of_escapes escapes
  induction text generalizing run with
  | nil => exact .nil
  | cons c text ih =>
    rw [escapedAfter]
    split
    · next quote =>
      subst quote
      split
      · next another =>
        have few : form.leading (escapedAfter form (run + 1) text) + (run + 1) ≤ 2 :=
          leading_escapedAfter_le escapes (by omega)
        rw [← quote_eq]
        exact .quote another.1 (by rw [leading_quote_cons]; omega) (ih _)
      · have reads (rest : List Char) :
            form.piece? ('\\' :: (['"'] ++ rest)) = some (['"'], rest) :=
          piece?_escaped escapes rfl
        exact .piece (by rw [quote_eq]; decide) reads (ih 0)
    · next notQuote =>
      obtain ⟨first, others, parts, notQuote', reads⟩ := exists_piece_of_ne_quote escapes notQuote
      rw [parts]
      exact .piece notQuote' reads (ih 0)

theorem leading_add_le_longestRun (current : Nat) :
    form.leading text + current ≤ longestRun form.quote current text := by
  induction text generalizing current with
  | nil => simp [longestRun]
  | cons c text ih =>
    rw [longestRun]
    split
    · next quote =>
      have behind := ih (current + 1)
      rw [quote, leading_quote_cons]
      omega
    · next notQuote =>
      rw [leading_cons_of_ne notQuote]
      omega

/-- Between single quotes, a text without controls means itself. -/
theorem means_self (noEscape : form.escapes = false) (noControl : ∀ c ∈ text, isControl c = false)
    (oneLine : form.multiline = false → form.quote ∉ text ∧ '\n' ∉ text) (current : Nat)
    (runs : form.multiline → longestRun form.quote current text ≤ 2) : form.Means text text := by
  induction text generalizing current with
  | nil => exact .nil
  | cons c text ih =>
    obtain ⟨noControlHere, noControlBehind⟩ := List.forall_mem_cons.1 noControl
    have oneLine' : form.multiline = false → form.quote ∉ text ∧ '\n' ∉ text := fun single =>
      ⟨fun member => (oneLine single).1 (.tail _ member),
        fun member => (oneLine single).2 (.tail _ member)⟩
    by_cases quote : c = form.quote
    · subst quote
      have multiline : form.multiline := by
        by_contra single
        exact (oneLine (by simpa using single)).1 (.head _)
      have few : form.leading (form.quote :: text) + current ≤ _ :=
        leading_add_le_longestRun current
      have total := runs multiline
      refine .quote multiline (by omega) (ih noControlBehind oneLine' (current + 1) fun _ => ?_)
      rwa [longestRun, if_pos rfl] at total
    · have reads (rest : List Char) : form.piece? (c :: ([] ++ rest)) = some ([c], rest) := by
        by_cases plain : isPlain c
        · exact piece?_plain plain (by simp [noEscape])
        · obtain rfl : c = '\n' := by simpa [isControl, plain] using noControlHere
          refine piece?_feed ?_
          by_contra single
          exact (oneLine (by simpa using single)).2 (.head _)
      refine .piece quote reads (ih noControlBehind oneLine' 0 fun multiline => ?_)
      have total := runs multiline
      rw [longestRun, if_neg quote] at total
      exact Nat.le_trans (Nat.le_max_right _ _) total

/-- What is written for a text means the text. -/
theorem means_body (text : List Char) : (suited text).Means ((suited text).body text) text := by
  have escaped (form : Quoting) (escapes : form.escapes) : form.Means (form.body text) text := by
    rw [body, if_pos escapes]
    exact means_escapedAfter escapes 0
  simp only [suited]
  split_ifs with control feed simple isLiteral quotes runs feed
  · exact escaped _ rfl
  · exact escaped _ rfl
  · exact escaped _ rfl
  · have oneLine : '\'' ∉ text ∧ '\n' ∉ text := by simpa using isLiteral
    change literal.Means text text
    exact means_self rfl (by simpa using control) (fun _ => oneLine) 0 nofun
  · exact escaped _ rfl
  · change multilineLiteral.Means text text
    exact means_self rfl (by simpa using control) nofun 0 fun _ => runs
  · exact escaped _ rfl
  · exact escaped _ rfl

/-! ### Whole strings -/

theorem lineEnd?_cons_of_ne (notFeed : c ≠ '\n') (notReturn : c ≠ '\r') :
    lineEnd? (c :: rest) = none := by
  unfold lineEnd?
  split <;> simp_all

/-- A carriage return ends a line only together with a line feed. -/
theorem lineEnd?_return_ne : lineEnd? ('\r' :: text) ≠ some ([c], rest) := by
  unfold lineEnd?
  split
  · next same => cases same
  · simp
  · simp

/-- A text without a line feed is not written with a line end in front. -/
theorem Means.lineEnd?_eq_none (means : form.Means written text) (noFeed : '\n' ∉ text) :
    lineEnd? (written ++ (form.delimiter ++ rest)) = none := by
  cases means with
  | nil => cases form <;> rfl
  | quote => cases form <;> rfl
  | @piece first c others _ _ _ reads =>
    have read : form.piece? (first :: others) = some ([c], []) := by simpa using reads []
    refine lineEnd?_cons_of_ne ?_ ?_
    · rintro rfl
      -- as a piece, a line feed means itself
      have notPlain : isPlain '\n' = false := by decide
      simp only [piece?, notPlain, lineEnd?] at read
      simp_all
    · rintro rfl
      -- as a piece, a carriage return means two characters
      have notPlain : isPlain '\r' = false := by decide
      have ends : form.multiline ∧ lineEnd? ('\r' :: others) = some ([c], []) := by
        simpa [piece?, notPlain] using read
      exact lineEnd?_return_ne ends.2

/-- On a single line, a string goes on with its text or with its only closing quote. -/
theorem Means.not_prefix (means : form.Means written text) (single : form.multiline = false)
    (stops : rest.head? ≠ some form.quote) :
    ¬[form.quote, form.quote] <+: written ++ (form.delimiter ++ rest) := by
  intro twoQuotes
  cases means with
  | nil =>
    have one : form.delimiter = [form.quote] := by simp [delimiter, single]
    rw [one, List.nil_append, List.singleton_append, List.cons_prefix_cons] at twoQuotes
    obtain ⟨more, rfl⟩ := twoQuotes.2
    exact stops rfl
  | quote multiline => simp [single] at multiline
  | piece notQuote =>
    rw [List.cons_append, List.cons_prefix_cons] at twoQuotes
    exact notQuote twoQuotes.1.symm

/-- A string in a form is read in this form. -/
theorem read?_write (means : form.Means (form.body text) text)
    (stops : rest.head? ≠ some form.quote) :
    form.read? (form.write text ++ rest) = some (String.ofList text, rest) := by
  have opened : form.afterOpening
      ((if form.multiline && text.contains '\n' then ['\n'] else []) ++
        (form.body text ++ (form.delimiter ++ rest))) =
      form.body text ++ (form.delimiter ++ rest) := by
    split
    · next feed =>
      obtain ⟨multiline, -⟩ : form.multiline = true ∧ _ := by simpa using feed
      simp [afterOpening, multiline, lineEnd?]
    · next noFeed =>
      by_cases multiline : form.multiline
      · have notMem : '\n' ∉ text := by simpa [multiline] using noFeed
        simp [afterOpening, means.lineEnd?_eq_none notMem]
      · simp [afterOpening, multiline]
  have enclosed (inside : List Char) :
      form.delimiter.isPrefixOf (form.delimiter ++ inside) = true := by simp
  rw [write, read?]
  simp only [List.append_assoc]
  rw [if_pos (enclosed _), List.drop_left, opened, means.readFrom?_eq stops]
  rfl

end Quoting

/-- The quotes of a string tell its form. -/
theorem string?_eq_read? {form : Quoting} {text : List Char}
    (single : form.multiline = false → ¬[form.quote, form.quote] <+: text) :
    string? (form.delimiter ++ text) = form.read? (form.delimiter ++ text) := by
  cases form with
  | multilineBasic => simp [string?, Quoting.delimiter, Quoting.quote, Quoting.multiline]
  | multilineLiteral => simp [string?, Quoting.delimiter, Quoting.quote, Quoting.multiline]
  | basic =>
    have notTwo := single rfl
    simp_all [string?, Quoting.delimiter, Quoting.quote, Quoting.multiline]
  | literal =>
    have notTwo := single rfl
    simp_all [string?, Quoting.delimiter, Quoting.quote, Quoting.multiline]

/-- A text that is written as a string is read back. -/
theorem string?_write {text rest : List Char}
    (stops : ∀ form : Quoting, rest.head? ≠ some form.quote) :
    string? ((Quoting.suited text).write text ++ rest) = some (String.ofList text, rest) := by
  have means := Quoting.means_body text
  generalize Quoting.suited text = form at means ⊢
  rw [← Quoting.read?_write means (stops form)]
  simp only [Quoting.write, List.append_assoc]
  refine string?_eq_read? fun single => ?_
  simpa [single] using means.not_prefix single (stops form)

end SearchKeys.Toml
