/-
# Quotes that are never closed

A quote that no later quote closes stands for itself, and the text behind it is cut once more as
if nothing had been quoted. All later quotes follow on backslashes. From whichever quote the text
is read, a quote behind a backslash closes nothing, so every later quote stands for itself as
well, and there are no phrases any more.

## Main definitions

* `Token.Unclosed`: what is true of a text behind a quote that is never closed.

## Main results

* `Segment.mem_unclosed_iff`, `Segment.exists_unclosed_eq_map`: the lone quotes are reported where
  they stand, in order.
* `Segment.Cuts.exists_loneQuote`: without quotations every quote is a lone one.
* `Token.unclosed_scan`: every quote that is reported is never closed.
-/

import SearchKeys.Proofs.Text.Ascii
import SearchKeys.Proofs.Token.Respelling

namespace SearchKeys

namespace Segment

variable {text rest before after : List Char} {segment : Segment}
  {segments earlier behind : List Segment}

/-! ### Where lone quotes stand -/

/-- A quote is reported by the number of bytes in front of it. -/
theorem mem_unclosed_iff {byte : Nat} :
    .unterminatedQuote byte ∈ unclosed segments ↔
      ∃ earlier behind, segments = earlier ++ .loneQuote :: behind ∧
        Text.byteLength (earlier.flatMap source) = byte := by
  constructor
  · intro reported
    obtain ⟨⟨segment, index⟩, member, isQuote⟩ := List.mem_filterMap.1 reported
    obtain ⟨rfl, bytes⟩ : segment = .loneQuote ∧
        Text.byteLength ((segments.take index).flatMap source) = byte := by simpa using isQuote
    obtain ⟨bound, found⟩ := List.getElem?_eq_some_iff.1 (List.mem_zipIdx_iff_getElem?.1 member)
    have parts := List.take_append_drop index segments
    rw [List.drop_eq_getElem_cons bound, found] at parts
    exact ⟨_, _, parts.symm, bytes⟩
  · rintro ⟨earlier, behind, rfl, rfl⟩
    refine List.mem_filterMap.2 ⟨(.loneQuote, earlier.length), ?_, by simp⟩
    exact List.mem_zipIdx_iff_getElem?.2 (by simp)

/-- Only lone quotes are reported, from the left to the right. -/
theorem exists_unclosed_eq_map (segments : List Segment) :
    ∃ bytes : List Nat, unclosed segments = bytes.map .unterminatedQuote ∧ bytes.Pairwise (· < ·) := by
  induction segments using List.reverseRecOn with
  | nil => exact ⟨[], rfl, .nil⟩
  | append_singleton segments segment ih =>
    obtain ⟨bytes, reported, increasing⟩ := ih
    rw [unclosed_concat, reported]
    split
    · refine ⟨bytes ++ [Text.byteLength (segments.flatMap source)], by simp, ?_⟩
      refine List.pairwise_append.2 ⟨increasing, List.pairwise_singleton .., ?_⟩
      intro byte member last isLast
      obtain rfl := List.mem_singleton.1 isLast
      -- a quote that was reported before is one of the segments in front
      have inFront : .unterminatedQuote byte ∈ unclosed segments := by simp [reported, member]
      obtain ⟨earlier, behind, rfl, rfl⟩ := mem_unclosed_iff.1 inFront
      have positive := Char.utf8Size_pos '"'
      simp only [List.flatMap_append, List.flatMap_cons, source, Text.byteLength_append,
        Text.byteLength_cons]
      omega
    · exact ⟨bytes, by simp, increasing⟩

/-! ### Behind a lone quote -/

/-- A quote is a part of a quotation, or a lone quote. -/
theorem Starts.eq_of_quote_mem_source (starts : Starts text segment rest)
    (quote : '"' ∈ segment.source) : (∃ body, segment = .quoted body) ∨ segment = .loneQuote := by
  cases starts with
  | blank isBlank =>
    obtain rfl := List.mem_singleton.1 quote
    exact absurd isBlank (by decide)
  | openParen => exact absurd quote (by decide)
  | closeParen => exact absurd quote (by decide)
  | word _ inside => exact absurd rfl (isWordChar_iff.1 (inside _ quote)).2.2.2
  | quoted => exact .inl ⟨_, rfl⟩
  | loneQuote => exact .inr rfl

/-- In a text without quotations every quote is a lone quote. -/
theorem Cuts.exists_loneQuote (cuts : Cuts text segments)
    (noQuotation : ∀ body, .quoted body ∉ segments) (parts : text = before ++ '"' :: after) :
    ∃ earlier behind, segments = earlier ++ .loneQuote :: behind ∧
      earlier.flatMap source = before := by
  induction cuts generalizing before with
  | nil => simp at parts
  | @cons text rest segment segments starts _ ih =>
    have notQuoted : ∀ body, segment ≠ .quoted body := fun body same =>
      noQuotation body (by simp [same])
    have later (more : List Char) (before_eq : before = segment.source ++ more)
        (rest_eq : rest = more ++ '"' :: after) : ∃ earlier behind,
          segment :: segments = earlier ++ .loneQuote :: behind ∧
          earlier.flatMap source = before := by
      obtain ⟨earlier, behind, rfl, rfl⟩ :=
        ih (fun body member => noQuotation body (.tail _ member)) rest_eq
      exact ⟨segment :: earlier, behind, rfl, by rw [before_eq, List.flatMap_cons]⟩
    -- the quote stands behind the first segment, or it is one of its characters
    rw [← starts.source_append] at parts
    rcases List.append_eq_append_iff.1 parts with
      ⟨more, before_eq, behind⟩ | ⟨_ | ⟨c, more⟩, source_eq, behind⟩
    · exact later more before_eq behind
    · exact later [] (by simpa using source_eq.symm) (by simpa using behind.symm)
    · obtain ⟨rfl, -⟩ := List.cons.inj behind
      obtain ⟨body, isQuoted⟩ | rfl := starts.eq_of_quote_mem_source (by simp [source_eq])
      · exact absurd isQuoted (notQuoted body)
      · have first : before = [] := by
          have single := congrArg List.length source_eq
          simp only [source, List.length_append, List.length_cons, List.length_nil] at single
          exact List.length_eq_zero_iff.1 (by omega)
        exact ⟨[], segments, rfl, first.symm⟩

/-- Only a quotation is a phrase. -/
theorem exists_quoted_of_token?_eq {phrase : String}
    (isPhrase : segment.token? = some (.phrase phrase)) : ∃ body, segment = .quoted body := by
  cases segment with
  | quoted body => exact ⟨body, rfl⟩
  | word text =>
    rw [token?, wordToken] at isPhrase
    split at isPhrase <;> cases isPhrase
  | _ => cases isPhrase

end Segment

namespace Token

/-- The bytes of a text behind a quote that is never closed, and the tokens there. -/
structure Unclosed (text : List Char) (byte : Nat) : Prop where
  /-- The quote itself. -/
  isQuote : (Text.encode text)[byte]? = some 0x22
  /-- Every later quote has a backslash in front of it. -/
  escaped : ∀ later, byte < later → (Text.encode text)[later]? = some 0x22 →
    (Text.encode text)[later - 1]? = some 0x5C
  /-- Every later quote is reported, too. -/
  reported : ∀ later, byte < later → (Text.encode text)[later]? = some 0x22 →
    .unterminatedQuote later ∈ (scan text).2
  /-- Behind the term that is the quote itself, no phrase is read. -/
  noPhrase : ∃ earlier behind, Segment.ofText text = earlier ++ .loneQuote :: behind ∧
    Text.byteLength (earlier.flatMap Segment.source) = byte ∧
    (scan text).1 = earlier.filterMap Segment.token? ++ lone :: behind.filterMap Segment.token? ∧
    ∀ token ∈ behind.filterMap Segment.token?, ∀ phrase, token ≠ .phrase phrase

section Unclosed

variable {text before before' after after' : List Char} {byte : Nat}

theorem getElem?_encode_quote_iff : (Text.encode text)[byte]? = some 0x22 ↔
    ∃ before after, text = before ++ '"' :: after ∧ Text.byteLength before = byte :=
  Text.getElem?_encode_eq_some_iff (c := '"') (by decide)

/-- Of two quotes, the one with more bytes in front of it stands behind the other one. -/
theorem exists_between (same : before ++ '"' :: after = before' ++ '"' :: after')
    (less : Text.byteLength before < Text.byteLength before') :
    ∃ between, before' = before ++ '"' :: between ∧ after = between ++ '"' :: after' := by
  rcases List.append_eq_append_iff.1 same with
    ⟨_ | ⟨c, between⟩, rfl, behind⟩ | ⟨more, rfl, -⟩
  · simp at less
  · obtain ⟨rfl, rfl⟩ := List.cons.inj behind
    exact ⟨between, rfl, rfl⟩
  · rw [Text.byteLength_append] at less
    omega

theorem unclosed_of_mem (warned : .unterminatedQuote byte ∈ (scan text).2) :
    Unclosed text byte := by
  rw [scan, Segment.warnings_eq_unclosed] at warned
  obtain ⟨earlier, behind, cut, rfl⟩ := Segment.mem_unclosed_iff.1 warned
  obtain ⟨after, whole, escaped, cutsAfter⟩ := (Segment.cuts_iff.2 cut).exists_behind_loneQuote
  have noQuotation : ∀ body, .quoted body ∉ behind := by
    rw [← Segment.cuts_iff.1 cutsAfter]
    exact Segment.quoted_notMem_ofText escaped
  -- a quote at a later byte is one of the text behind the lone quote
  have atQuote {later : Nat} (behindQuote : Text.byteLength (earlier.flatMap Segment.source) < later)
      (isQuote : (Text.encode text)[later]? = some 0x22) : ∃ between after',
        text = earlier.flatMap Segment.source ++ '"' :: (between ++ '"' :: after') ∧
        after = between ++ '"' :: after' ∧
        later = Text.byteLength (earlier.flatMap Segment.source ++ '"' :: between) := by
    obtain ⟨before', after', whole', rfl⟩ := getElem?_encode_quote_iff.1 isQuote
    obtain ⟨between, rfl, rfl⟩ := exists_between (whole.symm.trans whole') behindQuote
    exact ⟨between, after', whole, rfl, rfl⟩
  refine ⟨getElem?_encode_quote_iff.2 ⟨_, _, whole, rfl⟩, fun later behindQuote isQuote => ?_,
    fun later behindQuote isQuote => ?_, earlier, behind, cut, rfl, ?_, fun token member => ?_⟩
  · obtain ⟨between, after', whole, rfl, rfl⟩ := atQuote behindQuote isQuote
    obtain ⟨init, rfl⟩ := List.getLast?_eq_some_iff.1 (escaped between after' rfl)
    refine (Text.getElem?_encode_eq_some_iff (c := '\\') (by decide)).2
      ⟨earlier.flatMap Segment.source ++ '"' :: init, '"' :: after', by simp [whole], ?_⟩
    have size : '\\'.utf8Size = 1 := by decide
    simp only [Text.byteLength_append, Text.byteLength_cons, size]
    rfl
  · obtain ⟨between, after', whole, rfl, rfl⟩ := atQuote behindQuote isQuote
    obtain ⟨earlier', behind', rfl, rfl⟩ := cutsAfter.exists_loneQuote noQuotation rfl
    rw [scan, Segment.warnings_eq_unclosed]
    refine Segment.mem_unclosed_iff.2
      ⟨earlier ++ .loneQuote :: earlier', behind', by simp [cut], ?_⟩
    rw [List.flatMap_append, List.flatMap_cons]
    rfl
  · rw [scan, cut, List.filterMap_append]
    rfl
  · rintro phrase rfl
    obtain ⟨segment, inside, isToken⟩ := List.mem_filterMap.1 member
    obtain ⟨body, rfl⟩ := Segment.exists_quoted_of_token?_eq isToken
    exact noQuotation body inside

end Unclosed

/-- Quotes are reported from the left to the right, and each one that is reported is never closed,
nor is any later one. -/
theorem unclosed_scan (text : List Char) :
    (∃ bytes : List Nat,
      (scan text).2 = bytes.map .unterminatedQuote ∧ bytes.Pairwise (· < ·)) ∧
    ∀ byte, .unterminatedQuote byte ∈ (scan text).2 → Unclosed text byte := by
  constructor
  · rw [scan, Segment.warnings_eq_unclosed]
    exact Segment.exists_unclosed_eq_map _
  · exact fun byte => unclosed_of_mem

/-- The quote behind the backslash would be a part of a phrase, and is none. -/
theorem unclosed_scan_escaped :
    let text := "é \"a\\\"b".toList
    .unterminatedQuote 3 ∈ (scan text).2 ∧ Unclosed text 3 := by
  intro text
  have warned : .unterminatedQuote 3 ∈ (scan text).2 := by
    decide +kernel
  exact ⟨warned, (unclosed_scan text).2 3 warned⟩

end Token

end SearchKeys
