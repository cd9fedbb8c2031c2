/-
# What is read from keys

Every token that keys are cut into was spelled somewhere in them, so a search key that was read
has something visible in it and can be written. Only a lone quote does not spell its token in
all keys: a later quote could close it.

## Main results

* `Segment.exists_starts`: the segments of a text are found somewhere in it.
* `Segment.Starts.source_token`: what a segment stands for is written as it was read.
* `Segment.Starts.spells_source`: what a segment other than a lone quote stands for is spelled
  wherever it is written.
* `Token.visible_and_writable_of_mem_scan`: every search key that was read has something visible
  in it and can be written.
* `Token.exists_scan_quoteIfNeeded_iff`: which keys are read back from what they are written as.
-/

import SearchKeys.Proofs.Token.Cut

namespace SearchKeys

namespace Segment

section Starts

variable {text rest : List Char} {segment : Segment}

/-- The later segments of a text are those of its last part. -/
theorem Cuts.exists_of_append {first second : List Segment} (cuts : Cuts text (first ++ second)) :
    ∃ before behind, text = before ++ behind ∧ Cuts behind second := by
  induction first generalizing text with
  | nil => exact ⟨[], text, rfl, cuts⟩
  | cons segment first ih =>
    obtain _ | ⟨starts, others⟩ := cuts
    obtain ⟨before, behind, rfl, cuts⟩ := ih others
    exact ⟨segment.source ++ before, behind, by simp [starts.source_append], cuts⟩

/-- Segments make up the text that falls apart into them. -/
theorem Cuts.flatMap_source {segments : List Segment} (cuts : Cuts text segments) :
    segments.flatMap source = text := by
  rw [← cuts_iff.1 cuts, flatMap_source_ofText]

/-- No later quote closes a lone quote. -/
theorem Cuts.exists_behind_loneQuote {earlier behind : List Segment}
    (cuts : Cuts text (earlier ++ .loneQuote :: behind)) :
    ∃ after, text = earlier.flatMap source ++ '"' :: after ∧ AllEscaped after ∧
      Cuts after behind := by
  obtain ⟨_, _, _, cutsBehind⟩ := cuts.exists_of_append
  obtain _ | ⟨starts, others⟩ := cutsBehind
  cases starts with
  | loneQuote never =>
    refine ⟨_, ?_, never, others⟩
    rw [← cuts.flatMap_source, ← others.flatMap_source, List.flatMap_append, List.flatMap_cons]
    rfl

/-- The segments of a text are found somewhere in it. -/
theorem exists_starts (member : segment ∈ ofText text) :
    ∃ before behind rest, text = before ++ behind ∧ Starts behind segment rest := by
  obtain ⟨first, second, parts⟩ := List.append_of_mem member
  obtain ⟨before, behind, whole, cuts⟩ := (cuts_iff.2 parts).exists_of_append
  obtain _ | ⟨starts, _⟩ := cuts
  exact ⟨before, behind, _, whole, starts⟩

theorem source_wordToken (text : String) : (wordToken text).source = text := by
  unfold wordToken
  split
  · next op found => exact Operator.ofKeyword?_eq_some_iff.1 found
  · rfl

/-- What a segment stands for is written as it was read. -/
theorem Starts.source_token {token : Token} (starts : Starts text segment rest)
    (isToken : segment.token? = some token) : token.source.toList = segment.source := by
  cases starts with
  | blank => cases isToken
  | openParen => cases isToken; rfl
  | closeParen => cases isToken; rfl
  | word =>
    obtain rfl := Option.some.inj isToken
    rw [source_wordToken, String.toList_ofList, source]
  | @quoted body _ closes =>
    rw [token?] at isToken
    split at isToken
    · cases isToken
    · obtain rfl := Option.some.inj isToken
      rw [Token.source, Token.quote, String.toList_ofList, String.toList_ofList,
        written_unescape closes.1, source]
  | loneQuote => cases isToken; rfl

/-- What a segment other than a lone quote stands for is spelled wherever it is written. -/
theorem Starts.spells_source {token : Token} (starts : Starts text segment rest)
    (closed : segment ≠ .loneQuote) (isToken : segment.token? = some token) :
    Token.Spells token.source.toList [token] := by
  cases starts with
  | blank => cases isToken
  | openParen =>
    cases isToken
    exact Token.spells_nil.openParen_cons
  | closeParen =>
    cases isToken
    exact Token.spells_closeParen
  | @word word _ notEmpty inside =>
    obtain rfl := Option.some.inj isToken
    rw [source_wordToken, String.toList_ofList]
    exact Token.spells_word word notEmpty inside
  | @quoted body _ closes =>
    rw [token?] at isToken
    split at isToken
    · cases isToken
    · next visible =>
      obtain rfl := Option.some.inj isToken
      refine Token.spells_quote ?_ ?_ <;> rw [String.toList_ofList]
      · exact visible
      · exact not_endsOpen_unescape closes
  | loneQuote => exact absurd rfl closed

/-- A search key that a segment stands for has something visible in it and can be written. -/
theorem Starts.visible_and_writable {token : Token} {key : String}
    (starts : Starts text segment rest) (isToken : segment.token? = some token)
    (isKey : token.key? = some key) : ¬Text.allBlank key.toList ∧ Token.Writable key := by
  cases starts with
  | blank => cases isToken
  | openParen => cases isToken; cases isKey
  | closeParen => cases isToken; cases isKey
  | @word word _ notEmpty inside =>
    obtain rfl := Option.some.inj isToken
    rw [wordToken] at isKey
    split at isKey
    · cases isKey
    · next noKeyword =>
      obtain rfl := Option.some.inj isKey
      obtain ⟨c, word, rfl⟩ := List.exists_cons_of_ne_nil notEmpty
      -- what was read as a word and is no keyword is written as it is
      have bare : Token.needsQuotes (String.ofList (c :: word)) = false :=
        Token.needsQuotes_eq_false_iff.2 ⟨by simp, by simpa using inside, noKeyword⟩
      have visible := (isWordChar_iff.1 (inside c (.head _))).1
      exact ⟨by simp [Text.allBlank, visible], fun quotes => absurd quotes (by rw [bare]; decide)⟩
  | @quoted body _ closes =>
    rw [token?] at isToken
    split at isToken
    · cases isToken
    · next visible =>
      obtain rfl := Option.some.inj isToken
      obtain rfl := Option.some.inj isKey
      rw [Token.Writable, String.toList_ofList]
      exact ⟨visible, fun _ => ⟨visible, not_endsOpen_unescape closes⟩⟩
  | loneQuote =>
    obtain rfl := Option.some.inj isToken
    obtain rfl := Option.some.inj isKey
    exact ⟨by decide, fun _ => ⟨by decide, by simp [EndsOpen]⟩⟩

end Starts

end Segment

namespace Token

/-- Every search key that was read has something visible in it and can be written. -/
theorem visible_and_writable_of_mem_scan {text : List Char} {token : Token} {key : String}
    (member : token ∈ (scan text).1) (isKey : token.key? = some key) :
    ¬Text.allBlank key.toList ∧ Writable key := by
  obtain ⟨segment, inside, isToken⟩ := List.mem_filterMap.1 member
  obtain ⟨_, _, _, _, starts⟩ := Segment.exists_starts inside
  exact starts.visible_and_writable isToken isKey

/-- An operator does not end in a backslash. -/
theorem not_endsOpen_of_ofKeyword? {text : String} (isKeyword : (Operator.ofKeyword? text).isSome) :
    ¬Segment.EndsOpen text.toList := by
  obtain ⟨operator, found⟩ := Option.isSome_iff_exists.1 isKeyword
  rw [← Operator.ofKeyword?_eq_some_iff.1 found]
  cases operator <;> simp [Operator.keyword, Segment.EndsOpen]

/-- A key is read back from what it is written as, as one token and without a warning, exactly if
something in it is visible and it does not both end in a backslash and have a character in it that
ends a word. -/
theorem exists_scan_quoteIfNeeded_iff (key : String) :
    (∃ token, scan (quoteIfNeeded key).toList = ([token], []) ∧
        (token = .term key ∨ token = .phrase key)) ↔
      (∃ c ∈ key.toList, Text.isBlank c = false) ∧
        ¬(key.toList.getLast? = some '\\' ∧
          ∃ c ∈ key.toList, Text.isBlank c ∨ c = '(' ∨ c = ')' ∨ c = '"') := by
  have ends_iff : (∃ c ∈ key.toList, Text.isBlank c ∨ c = '(' ∨ c = ')' ∨ c = '"') ↔
      ¬∀ c ∈ key.toList, Segment.isWordChar c := by
    simp only [not_forall, exists_prop, Segment.isWordChar_iff]
    refine exists_congr fun c => and_congr_right fun _ => ?_
    cases Text.isBlank c <;> simp [Decidable.or_iff_not_imp_left]
  constructor
  · rintro ⟨token, scanned, isKey⟩
    have carries : token.key? = some key := by
      rcases isKey with rfl | rfl <;> rfl
    have member : token ∈ (scan (quoteIfNeeded key).toList).1 := by
      rw [scanned]
      exact .head _
    obtain ⟨visible, writable⟩ := visible_and_writable_of_mem_scan member carries
    refine ⟨by simpa [Text.allBlank] using visible, fun ⟨opens, ends⟩ => ?_⟩
    have quotes : needsQuotes key := by
      by_contra bare
      exact ends_iff.1 ends (needsQuotes_eq_false_iff.1 (by simpa using bare)).2.1
    exact (writable quotes).2 opens
  · rintro ⟨visible, closed⟩
    have writable : Writable key := by
      refine fun quotes => ⟨by simpa [Text.allBlank] using visible, fun opens => ?_⟩
      -- what else stands in quotes are operators
      have inside : ∀ c ∈ key.toList, Segment.isWordChar c := by
        by_contra ends
        exact closed ⟨opens, ends_iff.2 ends⟩
      have noKeyword : Operator.ofKeyword? key = none := by
        by_contra isKeyword
        exact not_endsOpen_of_ofKeyword? (Option.isSome_iff_ne_none.2 isKeyword) opens
      have notEmpty : key ≠ "" := by
        rintro rfl
        exact Segment.not_endsOpen_nil opens
      rw [needsQuotes_eq_false_iff.2 ⟨notEmpty, inside, noKeyword⟩] at quotes
      cases quotes
    refine ⟨ofKey key, (spells_key writable).scan, ?_⟩
    rw [ofKey]
    split
    · exact .inr rfl
    · exact .inl rfl

end Token

end SearchKeys
