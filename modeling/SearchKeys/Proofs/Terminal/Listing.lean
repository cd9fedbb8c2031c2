/-
# One line for each token

Tokens are listed as they are written in keys, and there only quotes take a backslash. So a phrase
with a line feed in it takes up more than one line, and nothing else does: words end at line feeds,
and the terms mode puts spaces in their place. Where no phrase has one, the listing has a line for
each token, and tells the tokens by their lines.

## Main definitions

* `Terminal.plainLine`: the line of a token without its end.
* `Terminal.ListsEach`: a line for each token.

## Main results

* `Terminal.plainLine_injective`: a token is told by its line.
* `Terminal.count_tokenList`: the line feeds of a listing.
* `Terminal.listsEach_iff`: there is a line for each token if there is a line feed in none.
* `Terminal.listsEach_analyze_iff`: the keys whose tokens are listed on a line each, by mode.
-/

import SearchKeys.Proofs.Mode.Quotes
import SearchKeys.Proofs.Query.Keys
import SearchKeys.Proofs.Text.Lines
import SearchKeys.Proofs.Token.Scanned
import SearchKeys.Terminal.Listing

namespace SearchKeys

namespace Token

/-- A token is told by its kind and by how it is written. -/
theorem eq_of_kind_of_source {first second : Token} (kind : first.kind = second.kind)
    (source : first.source = second.source) : first = second := by
  cases first <;> cases second
  case phrase.phrase text text' =>
    have bodies := congrArg String.toList source
    simp only [Token.source, quote, String.toList_ofList, List.cons_append, List.cons.injEq,
      true_and, List.append_cancel_right_eq] at bodies
    -- what stands between the quotes is read back
    have texts := congrArg Segment.unescape bodies
    rw [Segment.unescape_written, Segment.unescape_written] at texts
    rw [String.toList_injective texts]
  case operator.operator op op' =>
    cases op <;> cases op' <;> first | rfl | exact absurd source (by decide)
  all_goals simp_all [Token.kind, Token.source, value]

theorem feed_mem_source_phrase {text : String} :
    '\n' ∈ (phrase text).source.toList ↔ '\n' ∈ text.toList := by
  rw [source, quote, String.toList_ofList]
  simp only [List.cons_append, List.mem_cons, List.mem_append, List.mem_flatMap, phraseChar,
    List.not_mem_nil, or_false, (by decide : '\n' ≠ '"'), false_or]
  constructor
  · rintro ⟨c, member, written⟩
    split at written
    · simp at written
    · rwa [List.mem_singleton.1 written]
  · intro member
    exact ⟨'\n', member, by simp⟩

end Token

namespace Terminal

/-! ### Lines -/

/-- The line of a token without its end: its kind in nine columns, then the token as it is written in
keys. -/
def plainLine (token : Token) : List Char :=
  (pad 9 token.kind).toList ++ token.source.toList

variable {tokens : List Token}

/-- The column of a kind has nine characters, no line end among them, and the kind stands in front of
its spaces. -/
theorem column_kind (token : Token) :
    (pad 9 token.kind).toList.length = 9 ∧ '\n' ∉ (pad 9 token.kind).toList ∧
      (pad 9 token.kind).toList.takeWhile (· != ' ') = token.kind.toList := by
  have kinds : ∀ kind ∈ ["term", "phrase", "operator", "open", "close"],
      (pad 9 kind).toList.length = 9 ∧ '\n' ∉ (pad 9 kind).toList ∧
        (pad 9 kind).toList.takeWhile (· != ' ') = kind.toList := by
    decide
  apply kinds
  cases token <;> simp [Token.kind]

/-- A token is told by its line. -/
theorem plainLine_injective : Function.Injective plainLine := by
  intro first second same
  obtain ⟨width, -, kind⟩ := column_kind first
  obtain ⟨width', -, kind'⟩ := column_kind second
  -- the columns are equally wide, so both lines are cut at the same place
  obtain ⟨columns, sources⟩ := List.append_inj same (width.trans width'.symm)
  apply Token.eq_of_kind_of_source _ (String.toList_injective sources)
  exact String.toList_injective (by rw [← kind, ← kind', columns])

theorem toList_tokenList (tokens : List Token) :
    (tokenList false tokens).toList = (tokens.map plainLine).flatMap (· ++ ['\n']) := by
  have line (token : Token) : (tokenLine false token).toList = plainLine token ++ ['\n'] := by
    simp [tokenLine, plainLine]
  rw [tokenList, String.toList_join, List.flatMap_map, List.flatMap_map]
  exact List.flatMap_congr fun token _ => line token

/-- The line feeds of a listing are the ends of the lines and those in the tokens. -/
theorem count_tokenList (tokens : List Token) :
    (tokenList false tokens).toList.count '\n' =
      tokens.length + (tokens.map fun token => token.source.toList.count '\n').sum := by
  rw [toList_tokenList]
  induction tokens with
  | nil => rfl
  | cons token tokens ih =>
    have line : (plainLine token ++ ['\n']).count '\n' = token.source.toList.count '\n' + 1 := by
      rw [plainLine, List.count_append, List.count_append,
        List.count_eq_zero_of_not_mem (column_kind token).2.1, Nat.zero_add,
        List.count_singleton_self]
    rw [List.map_cons, List.flatMap_cons, List.count_append, line, ih, List.length_cons,
      List.map_cons, List.sum_cons]
    omega

/-- The listing of some tokens has exactly one line for each of them: its kind in nine columns, then
the token as it is written in keys. -/
structure ListsEach (tokens : List Token) : Prop where
  /-- There are as many line feeds as tokens. -/
  feeds : (tokenList false tokens).toList.count '\n' = tokens.length
  /-- The lines are those of the tokens, in their order. -/
  lines : Text.pieces (tokenList false tokens).toList =
    tokens.map fun token => (pad 9 token.kind ++ token.source).toList ++ ['\n']

/-- There is a line for each token exactly if there is a line feed in none of them. -/
theorem listsEach_iff : ListsEach tokens ↔ ∀ token ∈ tokens, '\n' ∉ token.source.toList := by
  constructor
  · intro each token member inside
    have sum := count_tokenList tokens
    rw [each.feeds, Nat.left_eq_add] at sum
    -- the ends of the lines are all line feeds there are, so none are left for the tokens
    have none := List.sum_eq_zero_iff_forall_eq_nat.1 sum _ (List.mem_map_of_mem member)
    exact absurd inside (List.count_eq_zero.1 none)
  · intro noFeed
    constructor
    · rw [count_tokenList, Nat.add_eq_left, List.sum_eq_zero_iff_forall_eq_nat, List.forall_mem_map]
      exact fun token member => List.count_eq_zero.2 (noFeed token member)
    · have inLines : ∀ line ∈ tokens.map plainLine, '\n' ∉ line :=
        List.forall_mem_map.2 fun token member => List.mem_append.not.2
          (not_or.2 ⟨(column_kind token).2.1, noFeed token member⟩)
      rw [toList_tokenList, Text.pieces_flatMap inLines, List.map_map]
      exact List.map_congr_left fun token _ => by
        rw [Function.comp_apply, plainLine, String.toList_append]

/-- Tokens that are listed on a line each are told by their listing. -/
theorem injOn_tokenList : Set.InjOn (tokenList false) {tokens | ListsEach tokens} := by
  intro tokens each others each' same
  have lines : tokens.map (fun token => plainLine token ++ ['\n']) =
      others.map fun token => plainLine token ++ ['\n'] := by
    have pieces := each.lines.symm.trans ((congrArg (Text.pieces ·.toList) same).trans each'.lines)
    simpa only [String.toList_append, plainLine] using pieces
  exact List.map_injective_iff.2
    (fun first second same => plainLine_injective (List.append_cancel_right same)) lines

end Terminal

/-! ### Line feeds in the tokens of keys -/

namespace Mode

variable {default : Conjunction} {text : List Char} {token : Token}

/-- The keys of the keys language that have a line feed in a token are those with a quotation that
has one, if there is anything else to see in it. -/
theorem feed_notMem_complex_iff :
    (∀ token ∈ (analyzeComplex default text).tokens, '\n' ∉ token.source.toList) ↔
      ∀ body, .quoted body ∈ Segment.ofText text →
        Text.allBlank (Segment.unescape body) ∨ '\n' ∉ body := by
  constructor
  · intro noFeed body member
    by_cases blank : Text.allBlank (Segment.unescape body)
    · exact .inl blank
    · obtain ⟨_, _, _, _, starts⟩ := Segment.exists_starts member
      have isToken : (Segment.quoted body).token? =
          some (.phrase (String.ofList (Segment.unescape body))) := by
        rw [Segment.token?, if_neg blank]
      have here := noFeed _ (List.mem_filterMap.2 ⟨_, member, isToken⟩)
      rw [starts.source_token isToken] at here
      exact .inr fun inside => here (by simp [Segment.source, inside])
  · intro noFeed token member
    obtain ⟨segment, among, isToken⟩ := List.mem_filterMap.1 member
    obtain ⟨_, _, _, _, starts⟩ := Segment.exists_starts among
    rw [starts.source_token isToken]
    cases starts with
    | blank => cases isToken
    | openParen => decide
    | closeParen => decide
    | word _ inside => exact fun feed => absurd (inside _ feed) (by decide)
    | @quoted body _ closes =>
      have visible : ¬Text.allBlank (Segment.unescape body) := fun blank => by
        rw [Segment.token?, if_pos blank] at isToken
        cases isToken
      have here := (noFeed body among).resolve_left visible
      simp [Segment.source, here]
    | loneQuote => decide

/-- The phrase of the phrase mode keeps the line feeds of the keys. -/
theorem feed_notMem_phrase_iff :
    (∀ token ∈ (analyzePhrase default text).tokens, '\n' ∉ token.source.toList) ↔
      '\n' ∉ Text.trim text := by
  rw [analyzePhrase]
  dsimp only
  split
  · next empty => simp [Analysis.empty, List.isEmpty_iff.1 empty]
  · rw [List.forall_mem_singleton, Token.feed_mem_source_phrase.not, String.toList_ofList]

/-- The terms mode leaves only spaces of blanks. -/
theorem feed_notMem_terms :
    ∀ token ∈ (analyzeTerms default text).tokens, '\n' ∉ token.source.toList := by
  intro token member feed
  have isToken := Terms.isToken_of_mem_tokens member
  -- a word ends at a blank, and of the blanks in a phrase only spaces are left
  cases token with
  | term value => exact absurd (isToken.2 _ feed).1 (by decide)
  | phrase value =>
    have space := isToken.2.2.spaces _ (Token.feed_mem_source_phrase.1 feed) (by decide)
    exact absurd space (by decide)
  | operator op =>
    obtain rfl : op = .not := isToken
    exact absurd feed (by decide)
  | openParen => exact isToken
  | closeParen => exact isToken

end Mode

namespace Terminal

/-- The tokens of keys are listed on a line each in the terms mode; in the phrase mode exactly if
the keys have no line feed between blanks at their ends; and in the complex mode exactly if there is
none in a quotation, where quotations of blanks do not count because they have no token. A listing
of this kind tells its tokens. -/
theorem listsEach_analyze_iff (default : Conjunction) (text : List Char) :
    Registry.standard.createAll default = [.complex default, .phrase default, .terms default] ∧
    (∃ analysis, (Mode.terms default).analyze (Text.encode text) = .ok analysis ∧
      ListsEach analysis.tokens) ∧
    (∃ analysis, (Mode.phrase default).analyze (Text.encode text) = .ok analysis ∧
      (ListsEach analysis.tokens ↔ '\n' ∉ Text.trim text)) ∧
    (∃ analysis, (Mode.complex default).analyze (Text.encode text) = .ok analysis ∧
      (ListsEach analysis.tokens ↔ ∀ body, .quoted body ∈ Segment.ofText text →
        Text.allBlank (Segment.unescape body) ∨ '\n' ∉ body)) ∧
    Set.InjOn (tokenList false) {tokens | ListsEach tokens} := by
  refine ⟨Mode.createAll_standard default, ⟨_, Mode.analyze_ofText .., ?_⟩,
    ⟨_, Mode.analyze_ofText .., ?_⟩, ⟨_, Mode.analyze_ofText .., ?_⟩, injOn_tokenList⟩
  · exact listsEach_iff.2 Mode.feed_notMem_terms
  · exact listsEach_iff.trans Mode.feed_notMem_phrase_iff
  · exact listsEach_iff.trans Mode.feed_notMem_complex_iff

/-- A quotation over two lines is one token on two lines. -/
theorem exists_not_listsEach :
    ∃ analysis, (Mode.complex .and).analyze (Text.encode "\"a\nb\"".toList) = .ok analysis ∧
      analysis.tokens = [.phrase "a\nb"] ∧
      (tokenList false analysis.tokens).toList.count '\n' = 2 ∧ ¬ListsEach analysis.tokens := by
  have tokens : (Mode.analyzeComplex .and "\"a\nb\"".toList).tokens = [.phrase "a\nb"] := by
    decide +kernel
  have feeds : (tokenList false [.phrase "a\nb"]).toList.count '\n' = 2 := by decide +kernel
  refine ⟨_, Mode.analyze_ofText .., tokens, ?_, fun each => ?_⟩
  · rw [tokens, feeds]
  · have counts := each.feeds
    rw [tokens, feeds] at counts
    exact absurd counts (by decide)

end Terminal

end SearchKeys
