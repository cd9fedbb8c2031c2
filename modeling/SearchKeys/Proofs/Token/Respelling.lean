/-
# Writing tokens again

A token that was read is read again from what it is written as. Tokens written one after
another, with a space between neighbours, are read again as well, unless there are two lone
quotes among them: with a space in front of it, the second one closes the first.

Behind a lone quote every quote follows on a backslash. So no quotation is closed there, and what
is read are words, parentheses and more lone quotes.

## Main definitions

* `Token.lone`: the term that a lone quote stands for.
* `Token.spaced`: tokens written one after another, each behind a space.

## Main results

* `Segment.quoted_notMem_ofText`: no quotation is closed where all quotes are escaped.
* `Token.ofText_quote_spaced_iff`: the tokens behind a lone quote are read again exactly if there
  is no other one.
* `Token.ofText_respelled`: single tokens are read again, and all tokens of a text together
  exactly if it has one lone quote at most.
-/

import SearchKeys.Proofs.Token.Scanned

namespace SearchKeys

namespace Segment

section Starts

variable {text rest : List Char} {segment : Segment} {token : Token}

/-- Where every quote is escaped no quotation is closed. -/
theorem quoted_notMem_ofText (escaped : AllEscaped text) (body : List Char) :
    quoted body ∉ ofText text := by
  intro member
  obtain ⟨before, behind, rest, rfl, starts⟩ := exists_starts member
  cases starts with
  | quoted closes =>
    -- its closing quote would follow on a backslash
    have opens : EndsOpen (before ++ '"' :: body) :=
      escaped (before ++ '"' :: body) rest (by simp)
    have behindQuote : EndsOpen ('"' :: body) := by
      simpa [EndsOpen, List.getLast?_append] using opens
    rw [endsOpen_cons_iff] at behindQuote
    split at behindQuote
    · exact absurd behindQuote (by decide)
    · exact closes.2 behindQuote

/-- A quote is only written for quotations and lone quotes. -/
theorem Starts.quote_notMem_source (starts : Starts text segment rest)
    (notQuoted : ∀ body, segment ≠ .quoted body) (notLone : segment ≠ .loneQuote)
    (isToken : segment.token? = some token) : '"' ∉ token.source.toList := by
  cases starts with
  | blank => cases isToken
  | openParen =>
    cases isToken
    decide
  | closeParen =>
    cases isToken
    decide
  | @word word _ notEmpty inside =>
    obtain rfl := Option.some.inj isToken
    rw [source_wordToken, String.toList_ofList]
    exact fun member => (isWordChar_iff.1 (inside _ member)).2.2.2 rfl
  | quoted => exact absurd rfl (notQuoted _)
  | loneQuote => exact absurd rfl notLone

/-- There is one warning for each lone quote. -/
theorem length_warnings (segments : List Segment) :
    (warnings segments).length = segments.count loneQuote := by
  rw [warnings_eq_unclosed]
  induction segments using List.reverseRecOn with
  | nil => rfl
  | append_singleton segments segment ih =>
    rw [unclosed_concat, List.length_append, ih, List.count_append, List.count_singleton]
    split <;> simp_all

end Starts

end Segment

namespace Token

/-- The term that a lone quote stands for. -/
def lone : Token :=
  .term "\""

/-- Tokens written one after another, each behind a space. -/
def spaced (tokens : List Token) : List Char :=
  tokens.flatMap fun token => ' ' :: token.source.toList

section Spaced

variable {text rest : List Char} {tokens : List Token}

theorem endsWord_spaced (tokens : List Token) : EndsWord (spaced tokens) := by
  cases tokens with
  | nil => exact endsWord_nil
  | cons token tokens => exact endsWord_cons (by decide)

theorem spaced_cons (token : Token) (tokens : List Token) :
    spaced (token :: tokens) = ' ' :: (token.source.toList ++ spaced tokens) := rfl

theorem spaced_append (first second : List Token) :
    spaced (first ++ second) = spaced first ++ spaced second :=
  List.flatMap_append

theorem spells_spaced (spelled : ∀ token ∈ tokens, Spells token.source.toList [token]) :
    Spells (spaced tokens) tokens := by
  induction tokens with
  | nil => exact spells_nil
  | cons token tokens ih =>
    obtain ⟨first, others⟩ := List.forall_mem_cons.1 spelled
    exact (first.append (ih others) (endsWord_spaced tokens)).blank_cons

theorem ofText_nil : ofText [] = [] := by
  simp [ofText, scan]

/-- A space in front of the first token does not matter. -/
theorem ofText_intercalate (tokens : List Token) :
    ofText ([' '].intercalate (tokens.map fun token => token.source.toList)) =
      ofText (spaced tokens) := by
  cases tokens with
  | nil => rfl
  | cons first others =>
    have joined : [' '].intercalate ((first :: others).map fun token => token.source.toList) =
        first.source.toList ++ spaced others := by
      rw [List.map_cons, intercalate_cons, List.flatMap_map]
      rfl
    rw [joined, spaced_cons, ofText_blank_cons]

/-- A quote without another one behind it is a lone quote. -/
theorem ofText_quote_of_notMem (noQuote : '"' ∉ text) :
    ofText ('"' :: text) = lone :: ofText text := by
  have escaped : Segment.AllEscaped text := by
    rintro before after rfl
    exact absurd (by simp) noQuote
  exact ofText_of_starts (.loneQuote escaped)

/-- Two quotes without a quote or a backslash between them make a quotation. -/
theorem ofText_quote_append (body rest : List Char) (noQuote : '"' ∉ body) :
    ofText ('"' :: (body ++ ' ' :: '"' :: rest)) =
      (Segment.quoted (body ++ [' '])).token?.toList ++ ofText rest := by
  have closes : Segment.Closes (body ++ [' ']) := by
    constructor
    · intro before after parts
      have member : '"' ∈ body ++ [' '] := by simp [parts]
      simp [noQuote] at member
    · simp [Segment.EndsOpen]
  have starts : Segment.Starts ('"' :: (body ++ [' '] ++ '"' :: rest)) (.quoted (body ++ [' ']))
      rest := .quoted closes
  rw [List.append_assoc] at starts
  exact ofText_of_starts starts

/-! ### Counting lone quotes -/

/-- A segment that is read as a lone quote contains a quote. -/
theorem count_lone_token?_le (segment : Segment) :
    segment.token?.toList.count lone ≤ segment.source.count '"' := by
  cases segment with
  | word text =>
    by_cases isLone : Segment.wordToken (String.ofList text) = lone
    · -- only the quote itself would be written like this
      have same : text = ['"'] := by
        rw [← String.toList_ofList (l := text), ← Segment.source_wordToken (String.ofList text),
          isLone]
        decide
      subst same
      decide
    · simp [Segment.token?, isLone]
  | quoted body =>
    rw [Segment.token?]
    split <;> simp [lone]
  | loneQuote => exact Nat.le_refl _
  | _ => exact Nat.zero_le _

/-- Each lone quote takes a quote of the text. -/
theorem count_lone_ofText_le (text : List Char) :
    (ofText text).count lone ≤ text.count '"' := by
  have segments (segments : List Segment) :
      (segments.filterMap Segment.token?).count lone ≤
        (segments.flatMap Segment.source).count '"' := by
    induction segments with
    | nil => exact Nat.zero_le _
    | cons segment segments ih =>
      have here := count_lone_token?_le segment
      rw [List.filterMap_eq_flatMap_toList] at ih ⊢
      rw [List.flatMap_cons, List.flatMap_cons, List.count_append, List.count_append]
      exact Nat.add_le_add here ih
  have whole := segments (Segment.ofText text)
  rwa [Segment.flatMap_source_ofText] at whole

theorem count_quote_spaced_le
    (each : ∀ token ∈ tokens, token = lone ∨ '"' ∉ token.source.toList) :
    (spaced tokens).count '"' ≤ tokens.count lone := by
  induction tokens with
  | nil => exact Nat.zero_le _
  | cons token tokens ih =>
    obtain ⟨first, others⟩ := List.forall_mem_cons.1 each
    have behind := ih others
    rw [spaced_cons, List.count_cons_of_ne (by decide), List.count_append]
    rcases first with rfl | noQuote
    · have single : lone.source.toList.count '"' = 1 := by decide
      rw [single, List.count_cons_self]
      omega
    · rw [List.count_eq_zero_of_not_mem noQuote, Nat.zero_add]
      exact Nat.le_trans behind List.count_le_count_cons

/-! ### Tokens that were read -/

/-- Only a lone quote is read as the term of a lone quote. -/
theorem token?_eq_some_lone_iff {segment : Segment} (inside : segment ∈ Segment.ofText text) :
    segment.token? = some lone ↔ segment = .loneQuote := by
  constructor
  · intro isLone
    by_contra notLone
    have notQuoted : ∀ body, segment ≠ .quoted body := by
      rintro body rfl
      rw [Segment.token?] at isLone
      split at isLone <;> cases isLone
    obtain ⟨_, _, _, _, starts⟩ := Segment.exists_starts inside
    exact starts.quote_notMem_source notQuoted notLone isLone (by decide)
  · rintro rfl
    rfl

theorem spells_source_of_mem {token : Token} (member : token ∈ ofText text)
    (notLone : token ≠ lone) : Spells token.source.toList [token] := by
  obtain ⟨segment, inside, isToken⟩ := List.mem_filterMap.1 member
  obtain ⟨_, _, _, _, starts⟩ := Segment.exists_starts inside
  refine starts.spells_source ?_ isToken
  rintro rfl
  exact notLone (Option.some.inj isToken).symm

/-- What is read behind a lone quote is written with lone quotes only. -/
theorem eq_lone_or_quote_notMem (escaped : Segment.AllEscaped text) {token : Token}
    (member : token ∈ ofText text) : token = lone ∨ '"' ∉ token.source.toList := by
  obtain ⟨segment, inside, isToken⟩ := List.mem_filterMap.1 member
  by_cases isLone : segment = .loneQuote
  · subst isLone
    exact .inl (Option.some.inj isToken).symm
  · obtain ⟨_, _, _, _, starts⟩ := Segment.exists_starts inside
    refine .inr (starts.quote_notMem_source (fun body isQuoted => ?_) isLone isToken)
    exact Segment.quoted_notMem_ofText escaped body (isQuoted ▸ inside)

/-- There is one warning for each lone quote. -/
theorem length_scan_snd (text : List Char) :
    (scan text).2.length = (ofText text).count lone := by
  have same : ∀ segment ∈ Segment.ofText text,
      (segment == .loneQuote) = true ↔ (segment.token? == some lone) = true := by
    intro segment inside
    rw [beq_iff_eq, beq_iff_eq, token?_eq_some_lone_iff inside]
  rw [scan, ofText, scan, Segment.length_warnings, List.count_filterMap, List.count,
    List.countP_congr same]

/-- The tokens in front of the first lone quote, and the text behind it. -/
theorem exists_of_lone_mem (member : lone ∈ ofText text) :
    ∃ first rest, ofText text = first ++ lone :: ofText rest ∧ lone ∉ first ∧
      Segment.AllEscaped rest := by
  obtain ⟨segment, inside, isLone⟩ := List.mem_filterMap.1 member
  obtain rfl := (token?_eq_some_lone_iff inside).1 isLone
  obtain ⟨before, behind, parts, notMem⟩ := List.eq_append_cons_of_mem inside
  obtain ⟨rest, -, never, others⟩ := (Segment.cuts_iff.2 parts).exists_behind_loneQuote
  refine ⟨before.filterMap Segment.token?, rest, ?_, ?_, never⟩
  · rw [ofText, scan, parts, ofText, scan, Segment.cuts_iff.1 others, List.filterMap_append]
    rfl
  · intro earlier
    obtain ⟨segment, inFront, isLone⟩ := List.mem_filterMap.1 earlier
    have inText : segment ∈ Segment.ofText text := by simp [parts, inFront]
    exact notMem ((token?_eq_some_lone_iff inText).1 isLone ▸ inFront)

/-! ### Reading them again -/

theorem quote_notMem_spaced (each : ∀ token ∈ tokens, '"' ∉ token.source.toList) :
    '"' ∉ spaced tokens := by
  simpa [spaced] using each

theorem ofText_spaced_of_lone_notMem (notMem : lone ∉ ofText text) :
    ofText (spaced (ofText text)) = ofText text := by
  have spelled := spells_spaced fun token inside =>
    spells_source_of_mem inside fun isLone => notMem (isLone ▸ inside)
  rw [ofText, spelled.scan]

/-- The tokens behind a lone quote are read again exactly if no other lone quote is among them. -/
theorem ofText_quote_spaced_iff (escaped : Segment.AllEscaped text) :
    ofText ('"' :: spaced (ofText text)) = lone :: ofText text ↔ lone ∉ ofText text := by
  have each : ∀ token ∈ ofText text, token = lone ∨ '"' ∉ token.source.toList :=
    fun token => eq_lone_or_quote_notMem escaped
  constructor
  · intro same member
    -- the next lone quote closes the first one, so two of them are missing
    obtain ⟨between, behind, parts, notMem⟩ := List.eq_append_cons_of_mem member
    rw [parts, List.forall_mem_append, List.forall_mem_cons] at each
    have noQuote : '"' ∉ spaced between := quote_notMem_spaced fun token inside =>
      (each.1 token inside).resolve_left fun isLone => notMem (isLone ▸ inside)
    have read := ofText_quote_append (spaced between) (spaced behind) noQuote
    have written : spaced (between ++ lone :: behind) =
        spaced between ++ ' ' :: '"' :: spaced behind := spaced_append ..
    rw [parts, written, read] at same
    have counts := congrArg (List.count lone) same
    have fewer := Nat.le_trans (count_lone_ofText_le (spaced behind))
      (count_quote_spaced_le each.2.2)
    have noLone : (Segment.quoted (spaced between ++ [' '])).token?.toList.count lone = 0 := by
      rw [Segment.token?]
      split <;> simp [lone]
    rw [List.count_append, List.count_cons_self, List.count_append, List.count_cons_self,
      noLone] at counts
    omega
  · intro notMem
    have noQuote : '"' ∉ spaced (ofText text) := quote_notMem_spaced fun token inside =>
      (each token inside).resolve_left fun isLone => notMem (isLone ▸ inside)
    rw [ofText_quote_of_notMem noQuote, ofText_spaced_of_lone_notMem notMem]

/-- The tokens of a text are read again exactly if one lone quote at most is among them. -/
theorem ofText_spaced_iff (text : List Char) :
    ofText (spaced (ofText text)) = ofText text ↔ (ofText text).count lone ≤ 1 := by
  by_cases member : lone ∈ ofText text
  · obtain ⟨first, rest, parts, notMem, escaped⟩ := exists_of_lone_mem member
    have spelled : Spells (spaced first) first := by
      refine spells_spaced fun token inside => ?_
      have inText : token ∈ ofText text := by simp [parts, inside]
      exact spells_source_of_mem inText fun isLone => notMem (isLone ▸ inside)
    -- the tokens in front of the first lone quote are read again whatever follows them
    have read : ofText (spaced (first ++ lone :: ofText rest)) =
        first ++ ofText ('"' :: spaced (ofText rest)) := by
      rw [spaced_append, ofText_append_of_spells spelled (endsWord_spaced _)]
      exact congrArg (first ++ ·) (ofText_blank_cons _)
    rw [parts, read, List.append_right_inj, ofText_quote_spaced_iff escaped, List.count_append,
      List.count_eq_zero_of_not_mem notMem, List.count_cons_self, ← List.count_eq_zero]
    omega
  · simp [ofText_spaced_of_lone_notMem member, List.count_eq_zero_of_not_mem member]

end Spaced

/-- A token that was read is read again on its own, and the tokens of a text with single spaces
between them are read again exactly if the text has one quote without a partner at most. -/
theorem ofText_respelled (text : List Char) :
    (∀ token ∈ ofText text, ofText token.source.toList = [token]) ∧
    (ofText ([' '].intercalate ((ofText text).map fun token => token.source.toList)) =
        ofText text ↔
      (scan text).2.length ≤ 1) := by
  constructor
  · intro token member
    by_cases isLone : token = lone
    · subst isLone
      have read := ofText_quote_of_notMem (List.not_mem_nil (a := '"'))
      rwa [ofText_nil] at read
    · rw [ofText, (spells_source_of_mem member isLone).scan]
  · rw [ofText_intercalate, length_scan_snd, ofText_spaced_iff]

/-- Neither the quote inside a phrase nor the lone quote behind it does any harm. -/
theorem ofText_respelled_phrase :
    let text := "\"a \\\"b\" \"".toList
    Token.phrase "a \"b" ∈ ofText text ∧
      ofText (Token.phrase "a \"b").source.toList = [.phrase "a \"b"] ∧
      (scan text).2.length = 1 ∧
      ofText ([' '].intercalate ((ofText text).map fun token => token.source.toList)) =
        ofText text := by
  intro text
  have spelled : Spells (quote "a \"b").toList [.phrase "a \"b"] :=
    spells_quote (by decide) (by simp [Segment.EndsOpen])
  have read : ofText text = [.phrase "a \"b", lone] := by
    have whole : text = (quote "a \"b").toList ++ [' ', '"'] := by decide
    rw [whole, ofText_append_of_spells spelled (endsWord_cons (by decide)), ofText_blank_cons,
      ofText_quote_of_notMem List.not_mem_nil, ofText_nil]
    rfl
  have member : Token.phrase "a \"b" ∈ ofText text := by simp [read]
  have single : (scan text).2.length = 1 := by
    rw [length_scan_snd, read]
    decide
  exact ⟨member, (ofText_respelled text).1 _ member, single,
    (ofText_respelled text).2.2 (Nat.le_of_eq single)⟩

end Token

end SearchKeys
