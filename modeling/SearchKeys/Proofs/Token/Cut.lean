/-
# The rule by which keys are cut

The scan reads character by character. What it finds can be said without it: a text starts with
a blank, a parenthesis, a word that goes on as long as it can, or a quote; a quote is closed by
the first later one that does not follow immediately on a backslash, and stands for itself if
there is none. Each segment is worth at most one token, and each lone quote one warning.

## Main definitions

* `Segment.Starts`, `Segment.Cuts`: the segment that a text starts with, and all of its segments.
* `Segment.Unescapes`, `Segment.Denotes`: what a quotation and what any segment stands for.
* `Segment.unclosed`: the warnings about the lone quotes.

## Main results

* `Segment.cuts_iff`: the segments of a text are those of the rule.
* `Token.scan_eq_iff_cuts`: the tokens and warnings of a text are what its segments stand for.
-/

import SearchKeys.Proofs.Token.Spelling
import Mathlib.Data.List.Forall2
import Mathlib.Data.List.Induction
import Mathlib.Logic.ExistsUnique

namespace SearchKeys

namespace Segment

/-! ### The segments of a text -/

open Token (EndsWord)

/-- A text starts with a segment, and this follows it. -/
inductive Starts : List Char → Segment → List Char → Prop
  | blank {c : Char} {rest : List Char} (isBlank : Text.isBlank c) :
      Starts (c :: rest) (blank c) rest
  | openParen {rest : List Char} : Starts ('(' :: rest) openParen rest
  | closeParen {rest : List Char} : Starts (')' :: rest) closeParen rest
  /-- A run of word characters that cannot go on. -/
  | word {text rest : List Char} (notEmpty : text ≠ []) (inside : ∀ c ∈ text, isWordChar c)
      (maximal : EndsWord rest) : Starts (text ++ rest) (word text) rest
  /-- A quote and what stands behind it up to the first quote that closes it. -/
  | quoted {body rest : List Char} (closes : Closes body) :
      Starts ('"' :: (body ++ '"' :: rest)) (quoted body) rest
  /-- A quote that no later quote closes. -/
  | loneQuote {rest : List Char} (never : AllEscaped rest) : Starts ('"' :: rest) loneQuote rest

/-- A text falls apart into segments, read from the left. -/
inductive Cuts : List Char → List Segment → Prop
  | nil : Cuts [] []
  | cons {text rest : List Char} {segment : Segment} {segments : List Segment}
      (starts : Starts text segment rest) (behind : Cuts rest segments) :
      Cuts text (segment :: segments)

/-- A segment and what follows it make up the text. -/
theorem Starts.source_append {text rest : List Char} {segment : Segment}
    (starts : Starts text segment rest) : segment.source ++ rest = text := by
  cases starts <;> simp [source]

theorem starts_first (c : Char) (rest : List Char) :
    Starts (c :: rest) (first c rest).1 (first c rest).2 := by
  by_cases blank : Text.isBlank c
  · rw [first_blank blank]
    exact .blank blank
  by_cases open' : c = '('
  · rw [open', first_openParen]
    exact .openParen
  by_cases close : c = ')'
  · rw [close, first_closeParen]
    exact .closeParen
  by_cases quote : c = '"'
  · subst quote
    rw [first_quote]
    cases closed : closeQuote? rest with
    | none => exact .loneQuote (closeQuote?_eq_none_iff.1 closed)
    | some cut =>
      obtain ⟨rfl, closes⟩ := closeQuote?_eq_some_iff.1 closed
      exact .quoted closes
  · have wordChar := isWordChar_iff.2 ⟨by simpa using blank, open', close, quote⟩
    have inside : ∀ d ∈ c :: rest.takeWhile isWordChar, isWordChar d :=
      List.forall_mem_cons.2 ⟨wordChar, List.all_eq_true.1 List.all_takeWhile⟩
    have maximal : EndsWord (rest.dropWhile isWordChar) := by
      intro d head
      have stops := List.head?_dropWhile_not isWordChar rest
      rw [head] at stops
      exact stops
    have starts := Starts.word (List.cons_ne_nil _ _) inside maximal
    rw [List.cons_append, List.takeWhile_append_dropWhile] at starts
    rw [first_word wordChar]
    exact starts

/-- What a text starts with is cut off first. -/
theorem Starts.ofText_eq {text rest : List Char} {segment : Segment}
    (starts : Starts text segment rest) : ofText text = segment :: ofText rest := by
  cases starts with
  | blank isBlank => rw [ofText_cons, first_blank isBlank]
  | openParen => rw [ofText_cons, first_openParen]
  | closeParen => rw [ofText_cons, first_closeParen]
  | word notEmpty inside maximal => exact Token.segments_word_append notEmpty inside maximal
  | @quoted body _ closes =>
    have closed : closeQuote? (body ++ '"' :: rest) = some (body, rest) :=
      closeQuote?_eq_some_iff.2 ⟨rfl, closes⟩
    rw [ofText_cons, first_quote, closed]
  | loneQuote never => rw [ofText_cons, first_quote, closeQuote?_eq_none_iff.2 never]

theorem cuts_ofText (text : List Char) : Cuts text (ofText text) := by
  -- a segment takes any number of characters, so the induction is on the length
  induction length : text.length using Nat.strongRecOn generalizing text with
  | ind n ih =>
    cases text with
    | nil =>
      rw [ofText_nil]
      exact .nil
    | cons c rest =>
      have shorter := first_shorter c rest
      rw [length] at shorter
      rw [ofText_cons]
      exact .cons (starts_first c rest) (ih _ shorter _ rfl)

/-- The segments of a text are those into which it falls apart. -/
theorem cuts_iff {text : List Char} {segments : List Segment} :
    Cuts text segments ↔ ofText text = segments := by
  constructor
  · intro cuts
    induction cuts with
    | nil => exact ofText_nil
    | cons starts _ ih => rw [starts.ofText_eq, ih]
  · rintro rfl
    exact cuts_ofText text

/-! ### What segments stand for -/

/-- The text is the body with a quote in place of each pair of a backslash and a quote. -/
inductive Unescapes : List Char → List Char → Prop
  | nil : Unescapes [] []
  | pair {body text : List Char} (behind : Unescapes body text) :
      Unescapes ('\\' :: '"' :: body) ('"' :: text)
  | single {c : Char} {body text : List Char}
      (noPair : ∀ tail, c = '\\' → body = '"' :: tail → False) (behind : Unescapes body text) :
      Unescapes (c :: body) (c :: text)

theorem unescapes_iff {body text : List Char} : Unescapes body text ↔ unescape body = text := by
  constructor
  · intro unescapes
    induction unescapes with
    | nil => rfl
    | pair _ ih => rw [unescape_escaped, ih]
    | single noPair _ ih => rw [unescape_cons _ _ noPair, ih]
  · rintro rfl
    induction [], body using unescapeFrom.induct with
    | case1 => exact .nil
    | case2 _ body ih =>
      rw [unescape_escaped]
      exact .pair ih
    | case3 _ c body noPair ih =>
      rw [unescape_cons _ _ noPair]
      exact .single noPair ih

/-- A segment stands for these tokens. -/
inductive Denotes : Segment → List Token → Prop
  | blank (c : Char) : Denotes (blank c) []
  | openParen : Denotes openParen [.openParen]
  | closeParen : Denotes closeParen [.closeParen]
  /-- A word is an operator if it is its keyword. -/
  | operator (op : Operator) : Denotes (word op.keyword.toList) [.operator op]
  /-- Any other word is a term. -/
  | term {text : List Char} (plain : ∀ op : Operator, text ≠ op.keyword.toList) :
      Denotes (word text) [.term (String.ofList text)]
  /-- A quotation is the phrase that its body stands for, if anything in it is visible. -/
  | phrase {body text : List Char} (unescapes : Unescapes body text)
      (visible : ∃ c ∈ text, Text.isBlank c = false) :
      Denotes (quoted body) [.phrase (String.ofList text)]
  | blankPhrase {body text : List Char} (unescapes : Unescapes body text)
      (blank : ∀ c ∈ text, Text.isBlank c) : Denotes (quoted body) []
  /-- A quote that is never closed is a term. -/
  | loneQuote : Denotes loneQuote [.term "\""]

theorem denotes_iff {segment : Segment} {tokens : List Token} :
    Denotes segment tokens ↔ segment.token?.toList = tokens := by
  constructor
  · intro denotes
    cases denotes with
    | operator op => simp [token?, wordToken, Operator.ofKeyword?_eq_some_iff.2 rfl]
    | @term text plain =>
      have noKeyword : Operator.ofKeyword? (String.ofList text) = none := by
        rw [Option.eq_none_iff_forall_ne_some]
        intro op found
        exact plain op (by rw [Operator.ofKeyword?_eq_some_iff.1 found, String.toList_ofList])
      simp [token?, wordToken, noKeyword]
    | @phrase body text unescapes visible =>
      have notBlank : Text.allBlank text = false := by simpa [Text.allBlank] using visible
      simp [token?, unescapes_iff.1 unescapes, notBlank]
    | @blankPhrase body text unescapes blank =>
      have allBlank : Text.allBlank text = true := by simpa [Text.allBlank] using blank
      simp [token?, unescapes_iff.1 unescapes, allBlank]
    | _ => rfl
  · rintro rfl
    cases segment with
    | blank c => exact .blank c
    | openParen => exact .openParen
    | closeParen => exact .closeParen
    | word text =>
      rw [token?, wordToken]
      split
      · next op found =>
        have keyword := Operator.ofKeyword?_eq_some_iff.1 found
        rw [← String.toList_ofList (l := text), ← keyword]
        exact .operator op
      · next noKeyword =>
        refine .term fun op same => ?_
        rw [same, String.ofList_toList, Operator.ofKeyword?_eq_some_iff.2 rfl] at noKeyword
        cases noKeyword
    | quoted body =>
      rw [token?]
      split
      · next blank =>
        exact .blankPhrase (unescapes_iff.2 rfl) (by simpa [Text.allBlank] using blank)
      · next visible =>
        exact .phrase (unescapes_iff.2 rfl) (by simpa [Text.allBlank] using visible)
    | loneQuote => exact .loneQuote

theorem forall₂_denotes_iff {segments : List Segment} {parts : List (List Token)} :
    List.Forall₂ Denotes segments parts ↔
      parts = segments.map fun segment => segment.token?.toList := by
  have denotes : Denotes = fun segment tokens => segment.token?.toList = tokens := by
    funext segment tokens
    exact propext denotes_iff
  rw [denotes, ← List.forall₂_map_left_iff, List.forall₂_eq_eq_eq]
  exact eq_comm

/-- The warnings about the lone quotes, each with the number of bytes in front of it. -/
def unclosed (segments : List Segment) : List Warning :=
  segments.zipIdx.filterMap fun (segment, index) =>
    if segment = loneQuote then
      some (.unterminatedQuote (Text.byteLength ((segments.take index).flatMap source)))
    else none

theorem foldl_warn_fst (segments : List Segment) (start : Nat × List Warning) :
    (segments.foldl warn start).1 = start.1 + Text.byteLength (segments.flatMap source) := by
  induction segments generalizing start with
  | nil => rfl
  | cons segment segments ih => simp [ih, warn, Nat.add_assoc]

theorem unclosed_concat (segments : List Segment) (segment : Segment) :
    unclosed (segments ++ [segment]) = unclosed segments ++
      if segment = loneQuote then
        [.unterminatedQuote (Text.byteLength (segments.flatMap source))]
      else [] := by
  rw [unclosed, List.zipIdx_append, List.filterMap_append]
  congr 1
  · refine List.filterMap_congr ?_
    rintro ⟨earlier, index⟩ member
    have inside : index < segments.length := List.snd_lt_of_mem_zipIdx member
    -- what stands in front of an earlier segment is not changed by the new one
    simp only [List.take_append_of_le_length (Nat.le_of_lt inside)]
  · split <;> simp_all

/-- The scan records just the lone quotes. -/
theorem warnings_eq_unclosed (segments : List Segment) :
    warnings segments = unclosed segments := by
  induction segments using List.reverseRecOn with
  | nil => rfl
  | append_singleton segments segment ih =>
    rw [warnings] at ih ⊢
    rw [List.foldl_concat, unclosed_concat, ← ih, warn, foldl_warn_fst]
    split <;> simp

end Segment

namespace Token

/-- The tokens of a text are that of its first segment and those of what follows it. -/
theorem ofText_of_starts {text rest : List Char} {segment : Segment}
    (starts : Segment.Starts text segment rest) :
    ofText text = segment.token?.toList ++ ofText rest := by
  simp only [ofText, scan, starts.ofText_eq, List.filterMap_cons]
  cases segment.token? <;> rfl

theorem ofText_blank_cons (text : List Char) : ofText (' ' :: text) = ofText text :=
  ofText_of_starts (.blank (by decide))

/-- Every text falls apart into segments in one way, and its tokens and warnings are what these
segments stand for. -/
theorem scan_eq_iff_cuts (text : List Char) :
    (∃! segments, Segment.Cuts text segments) ∧
    ∀ tokens warnings, scan text = (tokens, warnings) ↔
      ∃ segments parts, Segment.Cuts text segments ∧
        List.Forall₂ Segment.Denotes segments parts ∧ parts.flatten = tokens ∧
        Segment.unclosed segments = warnings := by
  simp only [Segment.cuts_iff, Segment.forall₂_denotes_iff]
  refine ⟨⟨_, rfl, fun _ => Eq.symm⟩, fun tokens warnings => ?_⟩
  simp [scan, Segment.warnings_eq_unclosed, List.filterMap_eq_flatMap_toList, List.flatMap_def]

end Token

end SearchKeys
