/-
# Quotes of the terms mode

The terms mode has no escapes, so its quotes pair up from the left to the right, whether they are
glued to words, stand behind a hyphen or have only blanks between them. If their number is even,
all of them have partners. If it is odd, just the last one has none, and nothing else is reported.

Since a word stops at a quote and a quotation at the next one, no key has a quote in it.

## Main definitions

* `Terms.IsToken`: what the tokens look like.

## Main results

* `Terms.Cuts.pairs`: the quotes of a text pair up.
* `Terms.warnings_pieces`: at most the last quote is reported.
* `Mode.analyze_terms_quotes`: what is reported about quotes, and what the keys are made of.
-/

import SearchKeys.Proofs.Mode.Terms
import SearchKeys.Proofs.Text.Ascii
import SearchKeys.Proofs.Text.Utf8
import Mathlib.Algebra.Ring.Parity

namespace SearchKeys

namespace Terms

variable {text rest : List Char} {piece : Piece} {pieces : List Piece}

/-! ### Pairs of quotes -/

/-- Only a lone quote has an odd number of quotes. -/
theorem Starts.even_count (starts : Starts text piece rest) (notLone : piece ≠ .loneQuote) :
    Even (piece.source.count '"') := by
  have none {chars : List Char} (noQuote : '"' ∉ chars) : chars.count '"' = 0 :=
    List.count_eq_zero_of_not_mem noQuote
  cases starts with
  | @blank c _ isBlank =>
    have visible : Text.isBlank '"' = false := by decide
    have other : '"' ∉ [c] := by
      rw [List.mem_singleton]
      rintro rfl
      simp [visible] at isBlank
    simp [Piece.source, none other]
  | hyphen => decide
  | @word text _ _ inside =>
    have other : '"' ∉ text := fun member => (isWordChar_iff.1 (inside _ member)).2 rfl
    simp [Piece.source, none other]
  | quoted noQuote => simp [Piece.source, none noQuote]
  | loneQuote => exact absurd rfl notLone

/-- Where no quote is written, there is no lone one. -/
theorem loneQuote_notMem_of_source (noQuote : '"' ∉ pieces.flatMap Piece.source) :
    .loneQuote ∉ pieces :=
  fun member => noQuote (List.mem_flatMap.2 ⟨_, member, .head _⟩)

/-- All quotes of a text have partners, or just the last one has none. -/
theorem Cuts.pairs (cuts : Cuts text pieces) :
    Even (text.count '"') ∧ .loneQuote ∉ pieces ∨
      Odd (text.count '"') ∧ ∃ earlier behind, pieces = earlier ++ .loneQuote :: behind ∧
        .loneQuote ∉ earlier ∧ '"' ∉ behind.flatMap Piece.source := by
  induction cuts with
  | nil => exact .inl ⟨by simp, by simp⟩
  | @cons text rest piece pieces starts others ih =>
    by_cases lone : piece = .loneQuote
    · -- no quote is left for the pieces behind it
      subst lone
      cases starts with
      | loneQuote noQuote =>
        have none : rest.count '"' = 0 := List.count_eq_zero_of_not_mem noQuote
        rw [← others.flatMap_source] at noQuote
        exact .inr ⟨by simp [none], [], pieces, rfl, by simp, noQuote⟩
    · -- any other piece changes neither the parity nor which quote is the last one
      have even := starts.even_count lone
      rw [← starts.source_append, List.count_append]
      rcases ih with ⟨evenBehind, noLone⟩ | ⟨odd, earlier, behind, rfl, noLone, noQuote⟩
      · exact .inl ⟨even.add evenBehind, by simp [noLone, Ne.symm lone]⟩
      · exact .inr ⟨even.add_odd odd, piece :: earlier, behind, rfl,
          by simp [noLone, Ne.symm lone], noQuote⟩

/-- The last quote is reported if the number of quotes is odd, and nothing else ever is. -/
theorem warnings_pieces (text : List Char) :
    Even (text.count '"') ∧ warnings (Terms.pieces text) = [] ∨
      Odd (text.count '"') ∧ ∃ before after, text = before ++ '"' :: after ∧ '"' ∉ after ∧
        warnings (Terms.pieces text) = [.unterminatedQuote (Text.byteLength before)] := by
  have cuts := cuts_pieces text
  rcases cuts.pairs with ⟨even, noLone⟩ | ⟨odd, earlier, behind, parts, noLone, noQuote⟩
  · exact .inl ⟨even, warnings_eq_nil noLone⟩
  · have whole : text = earlier.flatMap Piece.source ++ '"' :: behind.flatMap Piece.source := by
      rw [← cuts.flatMap_source, parts, List.flatMap_append, List.flatMap_cons]
      rfl
    refine .inr ⟨odd, _, _, whole, noQuote, ?_⟩
    rw [parts, warnings_eq_singleton noLone (loneQuote_notMem_of_source noQuote)]

/-! ### What the keys are made of -/

theorem quote_notMem_of_quoted_mem {body : List Char} (member : .quoted body ∈ Terms.pieces text) :
    '"' ∉ body := by
  obtain ⟨whole, rest, starts⟩ := (cuts_pieces text).exists_starts member
  cases starts with
  | quoted noQuote => exact noQuote

/-- What a token of the terms mode looks like. -/
def IsToken : Token → Prop
  | .term value => value ≠ "" ∧ ∀ c ∈ value.toList, Text.isBlank c = false ∧ c ≠ '"'
  | .phrase value => value ≠ "" ∧ '"' ∉ value.toList ∧ Text.SingleSpaced value.toList
  | .operator op => op = .not
  | _ => False

theorem isToken_of_mem_items (text : List Char) :
    ∀ item ∈ items (Terms.pieces text), IsToken item.token := by
  refine forall_mem_items IsToken (fun word member => ?_) (fun body member notEmpty => ?_)
  · simpa [IsToken] using of_word_mem member
  · -- a quote in the phrase would be one of the body, since only spaces were put in
    have noQuote : '"' ∉ Text.collapse body := fun inside => by
      rcases Text.mem_of_mem_collapse inside with space | inBody
      · cases space
      · exact quote_notMem_of_quoted_mem member inBody
    simpa [IsToken, notEmpty, noQuote] using Text.singleSpaced_collapse body

theorem isToken_of_mem_tokens {token : Token}
    (member : token ∈ (items (Terms.pieces text)).flatMap Item.tokens) : IsToken token := by
  obtain ⟨item, among, member⟩ := List.mem_flatMap.1 member
  have here := isToken_of_mem_items text item among
  rw [Item.tokens] at member
  split at member
  · rcases List.mem_pair.1 member with rfl | rfl
    · rfl
    · exact here
  · rw [List.mem_singleton.1 member]
    exact here

end Terms

namespace Mode

variable {keys : List UInt8} {text : List Char}

/-- Every text in UTF-8 is read. The last of its quotes is reported if their number is odd, and
nothing else ever is. Nothing is left of quotes in the tokens, and only single spaces of blanks. -/
theorem analyze_terms_quotes (default : Conjunction) (decoded : Text.decode keys = .ok text) :
    ∃ analysis, (terms default).analyze keys = .ok analysis ∧
      (Even (keys.count 0x22) → analysis.warnings = []) ∧
      (Odd (keys.count 0x22) → ∃ before after, keys = before ++ 0x22 :: after ∧ 0x22 ∉ after ∧
        analysis.warnings = [.unterminatedQuote before.length]) ∧
      ∀ token ∈ analysis.tokens, Terms.IsToken token := by
  -- a quote is one byte, and no other character has this byte
  have ascii : '"'.toNat < 0x80 := by decide
  have count (chars : List Char) : (Text.encode chars).count 0x22 = chars.count '"' :=
    Text.count_encode ascii
  have read : (terms default).analyze keys = .ok (analyzeTerms default text) := by
    simp [terms, ofText, decodeKeys, decoded, Except.map]
  obtain rfl := Text.decode_eq_ok_iff.1 decoded
  refine ⟨_, read, ?_⟩
  rcases Terms.warnings_pieces text with
    ⟨even, none⟩ | ⟨odd, before, after, rfl, noQuote, reported⟩
  · rw [← count, ← Nat.not_odd_iff_even] at even
    exact ⟨fun _ => none, fun odd => absurd odd even, fun _ => Terms.isToken_of_mem_tokens⟩
  · rw [← count, ← Nat.not_even_iff_odd] at odd
    refine ⟨fun even => absurd even odd, fun _ => ⟨Text.encode before, Text.encode after, ?_, ?_,
      ?_⟩, fun _ => Terms.isToken_of_mem_tokens⟩
    · exact (Text.encode_eq_append_cons_iff ascii).2 ⟨before, after, rfl, rfl, rfl⟩
    · rw [← List.count_eq_zero, count]
      exact List.count_eq_zero.2 noQuote
    · rw [Text.length_encode]
      exact reported

/-- Two of three quotes stand around a phrase, and the last one is reported by its byte. -/
theorem analyze_terms_quotes_unpaired :
    let text := "é-\"a\u3000 b\"x \"".toList
    Text.decode (Text.encode text) = .ok text ∧ Odd ((Text.encode text).count 0x22) ∧
      ∃ analysis, (terms .or).analyze (Text.encode text) = .ok analysis ∧
        analysis.tokens = [.term "é-", .phrase "a b", .term "x"] ∧
        (∃ before after, Text.encode text = before ++ 0x22 :: after ∧ 0x22 ∉ after ∧
          before.length = 13 ∧ analysis.warnings = [.unterminatedQuote before.length]) ∧
        ∀ token ∈ analysis.tokens, Terms.IsToken token := by
  intro text
  have decoded : Text.decode (Text.encode text) = .ok text := Text.decode_encode text
  have odd : Odd ((Text.encode text).count 0x22) := by decide +kernel
  obtain ⟨analysis, read, -, reported, areTokens⟩ := analyze_terms_quotes .or decoded
  obtain ⟨before, after, parts, noQuote, warnings⟩ := reported odd
  have isAnalysis : analyzeTerms .or text = analysis := by
    simpa [terms, ofText, decodeKeys, decoded, Except.map] using read
  have tokens : (analyzeTerms .or text).tokens = [.term "é-", .phrase "a b", .term "x"] := by
    decide +kernel
  have warnings' : (analyzeTerms .or text).warnings = [.unterminatedQuote 13] := by
    decide +kernel
  rw [isAnalysis] at tokens warnings'
  have byte : before.length = 13 := by simpa [warnings] using warnings'
  exact ⟨decoded, odd, analysis, read, tokens, ⟨before, after, parts, noQuote, byte, warnings⟩,
    areTokens⟩

end Mode

end SearchKeys
