/-
# Queries are well formed

Whatever the keys, a mode that finds a query in them returns a proper one: no group in it is
empty, each negation is an `AND` of one tree, the groups below the outermost one have two
children or more, and every key has something visible in it. Only the outermost group may have a
single child, because a query is always a group.

## Main definitions

* `Group.Proper`: the shape of a query that a mode returns.

## Main results

* `Query.single_or_wellFormed`: a query that was read is a single key, or it has several children
  in each group.
* `Mode.proper_of_query?`: every query of a mode that is always there is proper, and every tree
  that the parser returns has several children in each group that is no negation.
-/

import SearchKeys.Proofs.Query.Keys
import SearchKeys.Proofs.Token.Scanned

namespace SearchKeys

theorem Node.WellFormed.of_mem_children {least : Nat} {query : Group} {child : Node}
    (wellFormed : query.node.WellFormed least) (member : child ∈ query.children) :
    child.WellFormed least := by
  obtain ⟨conjunction, negated, children⟩ := query
  simp only [Group.node] at wellFormed member
  cases wellFormed with
  | not inner =>
    obtain rfl := List.mem_singleton.1 member
    exact inner
  | group _ inner => exact inner child member

/-- The shape of a query that a mode returns. -/
structure Group.Proper (query : Group) : Prop where
  /-- No group is empty, and negations are joined by `AND` and have one child. -/
  outermost : query.node.WellFormed 1
  /-- Below the outermost group, every group that is no negation has two children or more. -/
  inner : ∀ child ∈ query.children, child.WellFormed 2
  /-- Every key has something visible in it. -/
  visible : ∀ key ∈ query.leaves, ∃ c ∈ key.toList, Text.isBlank c = false

namespace Query

variable {default : Conjunction} {query : Group}

/-- A query that was read is a single key, or it has several children in each group. -/
theorem single_or_wellFormed {tokens : List Token}
    (made : Group.ofNode? default (Parser.parse default tokens).node = some query) :
    (∃ text, query = ⟨default, false, [.keys text]⟩) ∨ query.node.WellFormed 2 := by
  cases parsed : (Parser.parse default tokens).node with
  | none => simp [parsed, Group.ofNode?] at made
  | some node =>
    have wellFormed := Parser.parse_wellFormed parsed
    rw [parsed] at made
    rcases node with text | ⟨conjunction, negated, _ | ⟨first, rest⟩⟩
    · exact .inl ⟨text, (Option.some.inj made).symm⟩
    · cases made
    · obtain rfl := Option.some.inj made
      exact .inr wellFormed

end Query

namespace Terms

variable {default : Conjunction} {items : List Item} {query : Group}

/-- The children of a query without operators are keys and negated keys. -/
theorem Item.wellFormed_node (least : Nat) (item : Item) : item.node.WellFormed least := by
  rw [node]
  split
  · exact .not (.keys _)
  · exact .keys _

/-- A query that searches for some items has one child for each of them. -/
theorem query?_eq_some_iff :
    query? default items = some query ↔
      items ≠ [] ∧
      query = ⟨if items.any Item.excluded then .and else default, false, items.map Item.node⟩ := by
  cases items with
  | nil => simp [query?]
  | cons item items =>
    refine ⟨fun isQuery => ⟨List.cons_ne_nil _ _, (Option.some.inj isQuery).symm⟩, ?_⟩
    rintro ⟨-, rfl⟩
    rfl

theorem query?_proper (isQuery : query? default items = some query)
    (visible : ∀ item ∈ items, ¬Text.allBlank item.token.value.toList) : query.Proper := by
  obtain ⟨notEmpty, rfl⟩ := query?_eq_some_iff.1 isQuery
  have children (least : Nat) : ∀ child ∈ items.map Item.node, child.WellFormed least :=
    List.forall_mem_map.2 fun item _ => item.wellFormed_node least
  refine ⟨.group ?_ (children 1), children 2, fun key inside => ?_⟩
  · simpa [Nat.one_le_iff_ne_zero] using notEmpty
  · rw [Group.leaves, leaves_items] at inside
    obtain ⟨item, member, rfl⟩ := List.mem_map.1 inside
    simpa [Text.allBlank] using visible item member

end Terms

namespace Mode

variable {default : Conjunction} {text : List Char} {keys : List UInt8} {query : Group}

theorem query?_eq_some_iff {mode : Mode} :
    mode.query? keys = some query ↔
      ∃ analysis, mode.analyze keys = .ok analysis ∧ analysis.query = some query := by
  unfold query?
  cases mode.analyze keys <;> simp

/-- Keys that a mode can read are a text. -/
theorem exists_text_of_analyze {id label description : String} {analyze : List Char → Analysis}
    {analysis : Analysis}
    (analyzed : (ofText id label description default analyze).analyze keys = .ok analysis) :
    ∃ text, analyze text = analysis := by
  simp only [ofText] at analyzed
  cases decoded : decodeKeys keys with
  | error cause => simp [decoded, Except.map] at analyzed
  | ok text =>
    rw [decoded] at analyzed
    exact ⟨text, Except.ok.inj analyzed⟩

theorem analyzeComplex_proper (isQuery : (analyzeComplex default text).query = some query) :
    query.Proper := by
  have visible : ∀ key ∈ query.leaves, ∃ c ∈ key.toList, Text.isBlank c = false := by
    intro key inside
    rw [(analyzeComplex_keepsKeys default text).1 query isQuery] at inside
    obtain ⟨token, member, isKey⟩ := List.mem_filterMap.1 inside
    simpa [Text.allBlank] using (Token.visible_and_writable_of_mem_scan member isKey).1
  rcases Query.single_or_wellFormed isQuery with ⟨key, rfl⟩ | wellFormed
  · exact ⟨.group (by simp) (by simpa using .keys key), by simpa using .keys key, visible⟩
  · exact ⟨wellFormed.mono (by decide), fun child => wellFormed.of_mem_children, visible⟩

/-- A query of a mode without operators searches for items with something visible in each. -/
theorem exists_items {mode : Mode} (plain : mode = terms default ∨ mode = phrase default)
    (isQuery : mode.query? keys = some query) :
    ∃ items, Terms.query? default items = some query ∧
      ∀ item ∈ items, ¬Text.allBlank item.token.value.toList := by
  obtain ⟨analysis, analyzed, isQuery⟩ := query?_eq_some_iff.1 isQuery
  rcases plain with rfl | rfl <;> obtain ⟨text, rfl⟩ := exists_text_of_analyze analyzed
  · exact ⟨_, isQuery, Terms.items_visible text⟩
  · simp only [analyzePhrase] at isQuery
    split at isQuery
    · cases isQuery
    next notEmpty =>
    -- the phrase is an item that is not excluded
    refine ⟨[⟨false, .phrase (String.ofList (Text.trim text))⟩], isQuery, ?_⟩
    simpa [Token.value] using Text.not_allBlank_trim (by simpa using notEmpty)

/-- An excluded word is a negation in a group of its own. -/
theorem query?_terms_excluded {c : Char} {word : List Char} (notHyphen : c ≠ '-')
    (inside : ∀ d ∈ c :: word, Terms.isWordChar d) :
    (terms default).query? (Text.encode ('-' :: c :: word)) =
      some ⟨.and, false, [(Node.keys (String.ofList (c :: word))).not]⟩ := by
  refine query?_eq_some_iff.2 ⟨_, analyze_ofText .., ?_⟩
  rw [analyzeTerms, Terms.pieces_excluded notHyphen inside]
  rfl

/-- Every query of a mode that is always there is proper, and so is every tree that the parser
returns, the outermost group included. -/
theorem proper_of_query? (default : Conjunction) :
    (∀ mode ∈ Registry.standard.createAll default, ∀ (keys : List UInt8) (query : Group),
      mode.query? keys = some query → query.Proper) ∧
    (∀ (tokens : List Token) (node : Node),
      (Parser.parse default tokens).node = some node → node.WellFormed 2) := by
  refine ⟨fun mode standard keys query isQuery => ?_, fun _ _ => Parser.parse_wellFormed⟩
  rw [createAll_standard] at standard
  simp only [List.mem_cons, List.not_mem_nil, or_false] at standard
  rcases standard with rfl | plain
  · obtain ⟨analysis, analyzed, isQuery⟩ := query?_eq_some_iff.1 isQuery
    obtain ⟨text, rfl⟩ := exists_text_of_analyze analyzed
    exact analyzeComplex_proper isQuery
  · obtain ⟨items, isQuery, visible⟩ := exists_items plain.symm isQuery
    exact Terms.query?_proper isQuery visible

/-- An excluded word alone is a negation in a group of its own, and a negation with a key behind
it is a tree. -/
theorem proper_of_query?_excluded :
    let query : Group := ⟨.and, false, [(Node.keys "a").not]⟩
    terms .or ∈ Registry.standard.createAll .or ∧
      (terms .or).query? (Text.encode "-a".toList) = some query ∧ query.Proper ∧
      (Parser.parse .or [.operator .not, .term "a"]).node = some (Node.keys "a").not ∧
      (Node.keys "a").not.WellFormed 2 := by
  intro query
  have standard : terms .or ∈ Registry.standard.createAll .or := by
    rw [createAll_standard]
    simp
  have isQuery : (terms .or).query? (Text.encode "-a".toList) = some query :=
    query?_terms_excluded (by decide) (List.all_eq_true.1 (by decide))
  have parsed : (Parser.parse .or [.operator .not, .term "a"]).node = some (Node.keys "a").not := by
    decide
  exact ⟨standard, isQuery, (proper_of_query? .or).1 _ standard _ _ isQuery, parsed,
    (proper_of_query? .or).2 _ _ parsed⟩

end Mode

end SearchKeys
