/-
# Where the modes agree

Words and phrases are read alike by the complex mode and by the terms mode as long as the text is
plain. Both cut it at the same places, and what one of them reads as a phrase the other one reads
as that phrase with single spaces in it. A plain text has no operators and no exclusions, so both
queries are the keys in a row.

## Main definitions

* `Analysis.tidied`: an analysis with single spaces in its phrases.
* `Segment.Agrees`: a segment and a piece that are the same text of a plain text.

## Main results

* `Segment.forall₂_agrees`: the segments of a plain text are its pieces.
* `Parser.parse_keys`: keys in a row are one run.
* `Mode.analyze_terms_eq_tidied`: on plain text the two modes agree.
-/

import SearchKeys.Mode.Complex
import SearchKeys.Mode.Terms
import SearchKeys.Proofs.Mode.Terms
import SearchKeys.Proofs.Query.Grammar
import SearchKeys.Proofs.Query.Substitute
import SearchKeys.Proofs.Text.Plain
import SearchKeys.Proofs.Text.Utf8
import SearchKeys.Proofs.Token.Respelling

namespace SearchKeys

/-! ### Single spaces -/

/-- The string with one space in place of each run of blanks, and none at its ends. -/
def Text.tidied (text : String) : String :=
  String.ofList (Text.collapse text.toList)

/-- The token, with single spaces if it is a phrase. -/
def Token.tidied : Token → Token
  | .phrase text => .phrase (Text.tidied text)
  | token => token

/-- The query with single spaces in its keys. -/
def Group.tidied (query : Group) : Group :=
  { query with
    children := query.children.map (Node.substitute fun key => .keys (Text.tidied key)) }

/-- The analysis with single spaces in its phrases and in the keys of its query. -/
def Analysis.tidied (analysis : Analysis) : Analysis :=
  ⟨analysis.tokens.map Token.tidied, analysis.query.map Group.tidied, analysis.warnings⟩

/-! ### The same cuts -/

namespace Segment

/-- A segment and a piece that are the same part of a plain text. -/
inductive Agrees : Segment → Terms.Piece → Prop
  | blank (c : Char) : Agrees (.blank c) (.blank c)
  | word {text : List Char} (notEmpty : text ≠ [])
      (visible : ∀ c ∈ text, Text.isBlank c = false)
      (plain : ∀ op : Operator, op.keyword.toList ≠ text) : Agrees (.word text) (.word text)
  | quoted {body : List Char} (noBackslash : '\\' ∉ body) : Agrees (.quoted body) (.quoted body)

variable {text body rest : List Char} {segment : Segment} {piece : Terms.Piece}
  {segments : List Segment} {pieces : List Terms.Piece}

/-- Without backslashes, a quotation is closed by the next quote. -/
theorem quote_notMem_of_allEscaped (escaped : AllEscaped text) (noBackslash : '\\' ∉ text) :
    '"' ∉ text := by
  intro member
  obtain ⟨before, after, rfl⟩ := List.append_of_mem member
  have opens := List.mem_of_getLast? (escaped before after rfl)
  exact noBackslash (List.mem_append_left _ opens)

/-- Without backslashes, the body of a quotation stands for itself. -/
theorem unescape_of_notMem (noBackslash : '\\' ∉ body) : unescape body = body := by
  induction body with
  | nil => rfl
  | cons c body ih =>
    obtain ⟨other, others⟩ : '\\' ≠ c ∧ '\\' ∉ body := by simpa using noBackslash
    rw [unescape_cons c body fun _ isBackslash => absurd isBackslash.symm other, ih others]

/-- What a plain text starts with is cut off by both modes, and what follows is plain. -/
theorem Starts.agrees (starts : Starts text segment rest) (plain : Text.Plain text) :
    ∃ piece, Agrees segment piece ∧ Terms.pieces text = piece :: Terms.pieces rest ∧
      Text.Plain rest := by
  cases starts with
  | @blank c _ isBlank =>
    exact ⟨_, .blank c, (Terms.Starts.blank isBlank).pieces_eq, plain.blank_tail isBlank⟩
  | openParen => exact absurd (.head _) plain.noOpenParen
  | closeParen => exact absurd (.head _) plain.noCloseParen
  | @word text _ notEmpty inside maximal =>
    have visible : ∀ c ∈ text, Text.isBlank c = false ∧ c ≠ '"' := fun c member =>
      ⟨(isWordChar_iff.1 (inside c member)).1, (isWordChar_iff.1 (inside c member)).2.2.2⟩
    -- a parenthesis would end the word as well, but there is none
    have stops : ∀ c, rest.head? = some c → Text.isBlank c ∨ c = '"' := by
      intro c head
      have member : c ∈ text ++ rest := List.mem_append_right _ (List.mem_of_head? head)
      have notOpen : c ≠ '(' := fun same => plain.noOpenParen (same ▸ member)
      have notClose : c ≠ ')' := fun same => plain.noCloseParen (same ▸ member)
      by_contra goesOn
      rw [not_or, Bool.not_eq_true] at goesOn
      have ends := maximal c head
      rw [isWordChar_iff.2 ⟨goesOn.1, notOpen, notClose, goesOn.2⟩] at ends
      cases ends
    obtain ⟨plainRest, noOperator⟩ := plain.word_tail notEmpty visible stops
    obtain ⟨c, word, rfl⟩ := List.exists_cons_of_ne_nil notEmpty
    have notHyphen : c ≠ '-' := fun same => plain.noHyphenFirst (by rw [same]; rfl)
    refine ⟨_, .word notEmpty (fun d member => (visible d member).1) noOperator, ?_, plainRest⟩
    refine Terms.pieces_word_append notHyphen (fun d member => ?_) fun d head => ?_
    · simpa [Terms.isWordChar] using visible d member
    · rcases stops d head with blank | rfl
      · simp [Terms.isWordChar, blank]
      · simp [Terms.isWordChar]
  | @quoted body _ closes =>
    have noBackslash : '\\' ∉ body := fun member => plain.noBackslash (by simp [member])
    have noQuote := quote_notMem_of_allEscaped closes.1 noBackslash
    exact ⟨_, .quoted noBackslash, (Terms.Starts.quoted noQuote).pieces_eq,
      plain.quotation_tail noQuote⟩
  | loneQuote never =>
    have noBackslash : '\\' ∉ rest := fun member => plain.noBackslash (.tail _ member)
    have noQuote := quote_notMem_of_allEscaped never noBackslash
    have odd := plain.closed
    rw [List.count_cons_self, List.count_eq_zero_of_not_mem noQuote] at odd
    exact absurd odd (by decide)

/-- The segments of a plain text are its pieces. -/
theorem forall₂_agrees (plain : Text.Plain text) :
    List.Forall₂ Agrees (ofText text) (Terms.pieces text) := by
  have cuts := cuts_ofText text
  generalize ofText text = segments at cuts
  induction cuts with
  | nil =>
    rw [Terms.pieces_nil]
    exact .nil
  | cons starts _ ih =>
    obtain ⟨piece, agrees, pieces_eq, plainRest⟩ := starts.agrees plain
    rw [pieces_eq]
    exact .cons agrees (ih plainRest)

/-- Nothing that agrees is a lone quote. -/
theorem loneQuote_notMem (agrees : List.Forall₂ Agrees segments pieces) :
    Segment.loneQuote ∉ segments ∧ Terms.Piece.loneQuote ∉ pieces := by
  induction agrees with
  | nil => simp
  | cons first _ ih => cases first <;> simpa using ih

/-- A word that is no operator is a term. -/
theorem token?_word (plain : ∀ op : Operator, op.keyword.toList ≠ text) :
    (word text).token? = some (.term (String.ofList text)) :=
  Option.toList_eq_singleton_iff.1
    (denotes_iff.1 (.term fun op same => plain op same.symm))

/-- The token of a segment, with single spaces, is the item of the piece that agrees with it. -/
theorem Agrees.itemsFrom (agrees : Agrees segment piece) (done : List Terms.Item)
    (pieces : List Terms.Piece) :
    Terms.itemsFrom done false (piece :: pieces) =
      Terms.itemsFrom ((segment.token?.map fun token => ⟨false, token.tidied⟩).toList ++ done)
        false pieces := by
  cases agrees with
  | blank c => rfl
  | word _ _ plain =>
    rw [token?_word plain]
    rfl
  | @quoted body noBackslash =>
    rw [Terms.itemsFrom, token?, unescape_of_notMem noBackslash]
    by_cases blank : Text.allBlank body
    · simp [Text.collapse_eq_nil_iff.2 blank, blank]
    · simp [Text.collapse_eq_nil_iff, blank, Token.tidied, Text.tidied]

/-- The items are the tokens with single spaces, and none of them is excluded. -/
theorem items_eq_map (agrees : List.Forall₂ Agrees segments pieces) :
    Terms.items pieces =
      ((segments.filterMap token?).map Token.tidied).map (Terms.Item.mk false) := by
  have behind (done : List Terms.Item) : Terms.itemsFrom done false pieces = done.reverse ++
      ((segments.filterMap token?).map Token.tidied).map (Terms.Item.mk false) := by
    induction agrees generalizing done with
    | nil => simp [Terms.itemsFrom]
    | @cons segment _ _ _ first _ ih =>
      rw [first.itemsFrom, ih]
      cases token : segment.token? <;> simp [token]
  exact behind []

/-- A token carries a key. Single spaces make no difference to a term, which has no blanks. -/
theorem Agrees.value_tidied {token : Token} (agrees : Agrees segment piece)
    (isToken : segment.token? = some token) :
    token.key? = some token.value ∧ token.tidied.value = Text.tidied token.value := by
  cases agrees with
  | blank c => cases isToken
  | @word text notEmpty visible plain =>
    rw [token?_word plain] at isToken
    obtain rfl := Option.some.inj isToken
    simp [Token.key?, Token.tidied, Token.value, Text.tidied,
      Text.collapse_of_visible notEmpty visible]
  | quoted =>
    rw [token?] at isToken
    split at isToken
    · cases isToken
    · obtain rfl := Option.some.inj isToken
      exact ⟨rfl, rfl⟩

theorem forall_mem_value_tidied (agrees : List.Forall₂ Agrees segments pieces) :
    ∀ token ∈ segments.filterMap token?,
      token.key? = some token.value ∧ token.tidied.value = Text.tidied token.value := by
  intro token member
  obtain ⟨segment, inside, isToken⟩ := List.mem_filterMap.1 member
  obtain ⟨index, bound, rfl⟩ := List.getElem_of_mem inside
  have here := agrees.get bound (agrees.length_eq ▸ bound)
  exact Agrees.value_tidied here isToken

end Segment

namespace Parser

variable {default : Conjunction} {tokens : List Token}

/-- Keys in a row are one run. -/
theorem parse_keys (carry : ∀ token ∈ tokens, token.key? = some token.value) :
    parse default tokens =
      ⟨Fold.joinRun default (tokens.map fun token => .keys token.value).reverse, []⟩ := by
  have reads : ReadsExpression default 0
      (.run (tokens.map fun token => .keys token.value).reverse) tokens := by
    induction tokens using List.reverseRecOn with
    | nil => exact readsExpression_nil
    | append_singleton tokens token ih =>
      rw [List.forall_mem_append, List.forall_mem_singleton] at carry
      have behind := (ih carry.1).operand (readsOperand_key carry.2)
      simpa [Fold.push] using behind
  exact reads.parse_eq

end Parser

/-! ### Keys in a row -/

/-- The query that searches for some keys in a row, if there are any. -/
def Group.row? (conjunction : Conjunction) (texts : List String) : Option Group :=
  if texts.isEmpty then none else some ⟨conjunction, false, texts.map .keys⟩

theorem Group.row?_tidied (conjunction : Conjunction) (texts : List String) :
    (row? conjunction texts).map tidied = row? conjunction (texts.map Text.tidied) := by
  cases texts with
  | nil => rfl
  | cons text rest => simp [row?, tidied]

/-- A run of keys makes a query of keys in a row. -/
theorem Group.ofNode?_joinRun (default : Conjunction) (texts : List String) :
    ofNode? default (Fold.joinRun default (texts.map .keys).reverse) = row? default texts := by
  match texts with
  | [] => rfl
  | [text] => rfl
  | first :: second :: rest =>
    have positive : ((first :: second :: rest).map Node.keys).reverse.any Node.isNegation =
        false := by
      simp [Node.isNegation]
    obtain ⟨last, previous, others, parts⟩ := Node.exists_cons_cons
      (by simp : 2 ≤ ((first :: second :: rest).map Node.keys).reverse.length)
    have joined : Fold.joinRun default (last :: previous :: others) =
        some (.group default false (last :: previous :: others).reverse) := by
      rw [parts] at positive
      simp [Fold.joinRun, positive]
    rw [parts, joined, ← parts, List.reverse_reverse]
    rfl

/-- Without exclusions, the query for some items has their keys in a row. -/
theorem Terms.query?_included (conjunction : Conjunction) (tokens : List Token) :
    query? conjunction (tokens.map (Item.mk false)) =
      Group.row? conjunction (tokens.map Token.value) := by
  have nodes : Item.node ∘ Item.mk false = Node.keys ∘ Token.value := rfl
  simp [query?, Group.row?, nodes]

theorem Terms.flatMap_tokens_included (tokens : List Token) :
    (tokens.map (Item.mk false)).flatMap Item.tokens = tokens := by
  simp [List.flatMap_map, Item.tokens]

namespace Mode

variable {default : Conjunction} {keys : List UInt8} {text : List Char}

/-- Up to the blanks in phrases, plain text is analysed alike. -/
theorem analyzeTerms_eq_tidied (plain : Text.Plain text) :
    (analyzeComplex default text).warnings = [] ∧
      analyzeTerms default text = (analyzeComplex default text).tidied := by
  have agrees := Segment.forall₂_agrees plain
  have values : ∀ token ∈ Token.ofText text,
      token.key? = some token.value ∧ token.tidied.value = Text.tidied token.value :=
    Segment.forall_mem_value_tidied agrees
  obtain ⟨noLone, noLonePiece⟩ := Segment.loneQuote_notMem agrees
  have unclosed : Segment.warnings (Segment.ofText text) = [] := by
    rw [← List.length_eq_zero_iff, Segment.length_warnings, List.count_eq_zero_of_not_mem noLone]
  have analysis : analyzeComplex default text =
      ⟨Token.ofText text, Group.row? default ((Token.ofText text).map Token.value), []⟩ := by
    have scanned : Token.scan text = (Token.ofText text, []) := by
      rw [Token.ofText, Token.scan, unclosed]
    have row := Group.ofNode?_joinRun default ((Token.ofText text).map Token.value)
    rw [List.map_map] at row
    simp only [analyzeComplex, scanned, List.nil_append,
      Parser.parse_keys fun token member => (values token member).1, ← row]
    rfl
  have tidiedValues : (Token.ofText text).map (Token.value ∘ Token.tidied) =
      (Token.ofText text).map (Text.tidied ∘ Token.value) :=
    List.map_congr_left fun token member => (values token member).2
  refine ⟨by rw [analysis], ?_⟩
  rw [analysis, Analysis.tidied, Group.row?_tidied, List.map_map, ← tidiedValues, analyzeTerms,
    Segment.items_eq_map agrees, Terms.flatMap_tokens_included, Terms.query?_included,
    Terms.warnings_eq_nil noLonePiece, List.map_map]
  rfl

/-- On plain text the complex mode and the terms mode agree up to the blanks in phrases, and have
nothing to warn about. -/
theorem analyze_terms_eq_tidied (decoded : Text.decode keys = .ok text)
    (plain : Text.Plain text) :
    ∃ analysis, (complex default).analyze keys = .ok analysis ∧ analysis.warnings = [] ∧
      (terms default).analyze keys = .ok analysis.tidied := by
  obtain ⟨noWarning, same⟩ := analyzeTerms_eq_tidied plain
  refine ⟨analyzeComplex default text, ?_, noWarning, ?_⟩
  · simp [complex, ofText, decodeKeys, decoded, Except.map]
  · simp [terms, ofText, decodeKeys, decoded, Except.map, same]

/-- A phrase that is glued to a word, blanks that are not spaces, and a phrase of blanks. -/
theorem analyze_terms_eq_tidied_glued :
    let text := "x-ray\"  y \u00A0 z\"not\t\" \" ".toList
    Text.Plain text ∧
      ∃ analysis, (complex .or).analyze (Text.encode text) = .ok analysis ∧
        analysis.warnings = [] ∧
        (terms .or).analyze (Text.encode text) = .ok analysis.tidied := by
  intro text
  have plain : Text.Plain text :=
    ⟨by decide, by decide, by decide, by decide, by intro op; cases op <;> decide, by decide,
      by decide⟩
  exact ⟨plain, analyze_terms_eq_tidied (Text.decode_encode text) plain⟩

end Mode

end SearchKeys
