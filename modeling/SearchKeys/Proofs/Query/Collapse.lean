/-
# Reading back a written query

A group with one child leaves no trace in the keys: it is written as its child. Apart from
that, a written query comes back as it was, as long as its keys can be written and it does not
nest too deep. The outermost group needs no parentheses, but it only saves them if it has
several children; otherwise its one child is a nested tree.

## Main definitions

* `Token.Quotable`: a key that can be written.
* `Node.collapse`: a tree with its groups of one child replaced by that child.
* `Group.writtenDepth`: how deep a query nests as it is written.

## Main results

* `Group.parse_tokens_node_iff`: a written query comes back without a warning exactly if it does
  not nest too deep.
* `Group.ofBytes?_toText`: such a query is read back.
-/

import SearchKeys.Proofs.Query.Keys
import SearchKeys.Proofs.Query.TooDeep

namespace SearchKeys

/-! ### Keys -/

/-- A key with something visible in it that does not end in a backslash if one of its
characters would end a word. -/
def Token.Quotable (text : String) : Prop :=
  ¬Text.allBlank text.toList ∧
  (text.toList.any (fun c => Text.isBlank c || c == '(' || c == ')' || c == '"') →
    text.toList.getLast? ≠ some '\\')

instance (text : String) : Decidable (Token.Quotable text) :=
  inferInstanceAs (Decidable (_ ∧ (_ → _)))

/-- Such a key is read back when it is written. -/
theorem Token.Quotable.writable {text : String} (quotable : Quotable text) : Writable text := by
  intro quotes
  obtain ⟨visible, closed⟩ := quotable
  refine ⟨visible, ?_⟩
  rw [needsQuotes, Bool.or_eq_true, Bool.or_eq_true] at quotes
  rcases quotes with (empty | ending) | keyword
  · rw [String.isEmpty_iff] at empty
    exact absurd rfl (empty ▸ visible)
  · exact closed ending
  · -- a keyword does not end in a backslash
    obtain ⟨operator, found⟩ := Option.isSome_iff_exists.1 keyword
    rw [← Operator.ofKeyword?_eq_some_iff.1 found]
    unfold Segment.EndsOpen
    cases operator <;> decide

namespace Node

variable {conjunction : Conjunction}

/-- The tree with every group that has one child and is not negated replaced by that child. -/
def collapse : Node → Node
  | keys text => keys text
  | group conjunction negated children =>
    match negated, children.map collapse with
    | false, [child] => child
    | negated, children => group conjunction negated children

@[simp] theorem collapse_keys (text : String) : (keys text).collapse = keys text := by
  rw [collapse]

@[simp] theorem collapse_not (child : Node) : child.not.collapse = child.collapse.not := by
  simp [not, collapse]

theorem collapse_single (child : Node) :
    (group conjunction false [child]).collapse = child.collapse := by
  simp [collapse]

theorem collapse_several (first second : Node) (rest : List Node) :
    (group conjunction false (first :: second :: rest)).collapse =
      group conjunction false ((first :: second :: rest).map collapse) := by
  simp [collapse]

/-- A group that is not empty has one child or several. -/
theorem exists_single_or_several {children : List Node} (enough : 1 ≤ children.length) :
    (∃ child, children = [child]) ∨
      ∃ first second rest, children = first :: second :: rest := by
  rcases Nat.lt_or_ge 1 children.length with several | single
  · exact .inr (exists_cons_cons several)
  · exact .inl (List.length_eq_one_iff.1 (Nat.le_antisymm single enough))

/-- In a collapsed tree every group that is not negated has several children. -/
theorem WellFormed.collapse {node : Node} (wellFormed : node.WellFormed 1) :
    node.collapse.WellFormed 2 := by
  induction wellFormed with
  | keys text =>
    rw [collapse_keys]
    exact .keys text
  | not _ ih =>
    rw [collapse_not]
    exact .not ih
  | @group conjunction children enough _ ih =>
    rcases exists_single_or_several enough with ⟨child, rfl⟩ | ⟨first, second, rest, rfl⟩
    · rw [collapse_single]
      exact ih child (.head _)
    · rw [collapse_several]
      refine .group (by simp) ?_
      rintro _ member
      obtain ⟨child, inside, rfl⟩ := List.mem_map.1 member
      exact ih child inside

/-- A tree in which every group has several children is collapsed already. -/
theorem WellFormed.collapse_eq {node : Node} (wellFormed : node.WellFormed 2) :
    node.collapse = node := by
  induction wellFormed with
  | keys text => exact collapse_keys text
  | not _ ih => rw [collapse_not, ih]
  | @group conjunction children enough _ ih =>
    obtain ⟨first, second, rest, rfl⟩ := exists_cons_cons enough
    rw [collapse_several, List.map_congr_left (g := id) ih, List.map_id]

theorem tokens_map_collapse {children : List Node} (nested : Bool)
    (same : ∀ child ∈ children, child.collapse.tokens true = child.tokens true) :
    (group conjunction false (children.map collapse)).tokens nested =
      (group conjunction false children).tokens nested := by
  have written : (children.map collapse).map (tokens true) = children.map (tokens true) := by
    rw [List.map_map]
    exact List.map_congr_left same
  simp [tokens, written]

/-- A nested tree is written with the same tokens as the collapsed one. -/
theorem tokens_collapse {node : Node} (wellFormed : node.WellFormed 1) :
    node.collapse.tokens true = node.tokens true := by
  induction wellFormed with
  | keys text => rw [collapse_keys]
  | not _ ih => rw [collapse_not, tokens_not, tokens_not, ih]
  | @group conjunction children enough _ ih =>
    rcases exists_single_or_several enough with ⟨child, rfl⟩ | ⟨first, second, rest, rfl⟩
    · rw [collapse_single, ih child (.head _)]
      simp [tokens]
    · rw [collapse_several]
      exact tokens_map_collapse true ih

end Node

namespace Group

variable {query : Group}

/-- How deep a query nests as it is written. The outermost group only counts if it is a
negation, or if it is the only child of the query. -/
def writtenDepth (query : Group) : Nat :=
  if query.children.length = 1 then query.node.collapse.height else query.node.collapse.nesting

/-- The tokens of a written query are those of the collapsed tree. It is nested if it is the
only child of the query. -/
theorem tokens_node (wellFormed : query.node.WellFormed 1) :
    query.node.tokens false =
      query.node.collapse.tokens (decide (query.children.length = 1)) := by
  obtain ⟨conjunction, negated, children⟩ := query
  simp only [node] at wellFormed ⊢
  cases wellFormed with
  | @not child inner =>
    have collapsed := Node.tokens_collapse (.not inner)
    rw [← Node.not, decide_eq_true (by rfl), collapsed, Node.tokens_not, Node.tokens_not]
  | group enough inner =>
    rcases Node.exists_single_or_several enough with ⟨child, rfl⟩ | ⟨first, second, rest, rfl⟩
    · -- the outermost group leaves no trace, and its child is written like any nested tree
      rw [decide_eq_true (by rfl), Node.collapse_single,
        Node.tokens_collapse (inner child (.head _))]
      simp [Node.tokens]
    · rw [decide_eq_false (by simp), Node.collapse_several]
      exact (Node.tokens_map_collapse false fun child member =>
        Node.tokens_collapse (inner child member)).symm

/-- A written query is parsed into its collapsed tree without a warning exactly if it does not
nest too deep. -/
theorem parse_tokens_node_iff (wellFormed : query.node.WellFormed 1) (default : Conjunction) :
    Parser.parse default (query.node.tokens false) = ⟨some query.node.collapse, []⟩ ↔
      query.writtenDepth ≤ maxDepth := by
  rw [tokens_node wellFormed, writtenDepth]
  split
  · next single =>
    rw [decide_eq_true single]
    refine ⟨fun parsed => ?_, Parser.parse_tokens_nested wellFormed.collapse⟩
    by_contra deep
    exact Parser.parse_tokens_nested_ne default wellFormed.collapse (by omega)
      (by rw [parsed])
  · next several =>
    rw [decide_eq_false several]
    refine ⟨fun parsed => ?_, Parser.parse_tokens wellFormed.collapse⟩
    by_contra deep
    exact Parser.parse_tokens_ne default wellFormed.collapse (by omega)
      (by rw [parsed])

theorem children_ne_nil {least : Nat} (positive : 0 < least)
    (wellFormed : query.node.WellFormed least) : query.children ≠ [] := by
  obtain ⟨conjunction, negated, children⟩ := query
  simp only [node] at wellFormed
  rintro rfl
  cases wellFormed with
  | group enough _ => exact absurd enough (by simpa using positive.ne')

/-- A query whose keys can be written and that does not nest too deep as it is written is read
back without a warning: as its collapsed tree, and as itself if all its groups have several
children. -/
theorem ofBytes?_toText (wellFormed : query.node.WellFormed 1)
    (quotable : ∀ text ∈ query.leaves, Token.Quotable text)
    (room : query.writtenDepth ≤ maxDepth) (default : Conjunction) :
    (∃ tokens, Token.scan query.toText.toList = (tokens, []) ∧
      Parser.parse default tokens = ⟨some query.node.collapse, []⟩) ∧
    Query.ofBytes? default (Text.encode query.toText.toList) =
      ofNode? default (some query.node.collapse) ∧
    (query.node.WellFormed 2 →
      Query.ofBytes? default (Text.encode query.toText.toList) = some query) := by
  have writable : query.node.Writable := by
    intro text inside
    rw [leaves_node] at inside
    exact (quotable text inside).writable
  have scanned := Node.scan_toText wellFormed writable false
  have parsed := (parse_tokens_node_iff wellFormed default).2 room
  have read : Query.ofBytes? default (Text.encode query.toText.toList) =
      ofNode? default (some query.node.collapse) := by
    rw [Query.ofBytes?_encode, toText, scanned, parsed]
  refine ⟨⟨_, scanned, parsed⟩, read, fun several => ?_⟩
  rw [read, several.collapse_eq, ofNode?_node (children_ne_nil (by decide) several)]

/-- Quotes and keywords in the keys of a query do no harm, and a group of one child goes. -/
theorem ofBytes?_toText_quoted :
    let query : Group :=
      ⟨.or, false, [.group .and false [.keys "a \"b\""], (Node.keys "OR").not]⟩
    query.node.WellFormed 1 ∧ (∀ text ∈ query.leaves, Token.Quotable text) ∧
      query.writtenDepth ≤ maxDepth ∧
      Query.ofBytes? .and (Text.encode query.toText.toList) =
        some ⟨.or, false, [.keys "a \"b\"", (Node.keys "OR").not]⟩ := by
  intro query
  have wellFormed : query.node.WellFormed 1 := by
    refine .group (by decide) ?_
    simp only [query, List.forall_mem_cons, List.not_mem_nil, false_implies, implies_true, and_true]
    exact ⟨.group (by decide) (by simpa using .keys _), .not (.keys _)⟩
  have quotable : ∀ text ∈ query.leaves, Token.Quotable text := by
    have leaves : query.leaves = ["a \"b\"", "OR"] := by
      simp [query, leaves, Node.leaves]
    rw [leaves]
    decide
  have collapsed : query.node.collapse =
      .group .or false [.keys "a \"b\"", (Node.keys "OR").not] := by
    simp [query, node, Node.collapse_several, Node.collapse_single]
  have room : query.writtenDepth ≤ maxDepth := by
    rw [writtenDepth, collapsed]
    simp [query, Node.nesting, Node.isNegation, Node.height, Node.not, maxDepth]
  have read := (ofBytes?_toText wellFormed quotable room .and).2.1
  rw [collapsed] at read
  exact ⟨wellFormed, quotable, room, read⟩

end Group

/-! ### A group that is the only child

The parentheses of a group that is the only child of a query count as a level of their own. -/

namespace Node

/-- Groups inside each other, each with one key. -/
def tower : Nat → Node
  | 0 => keys "a"
  | levels + 1 => group .and false [keys "a", tower levels]

theorem wellFormed_tower (levels : Nat) : (tower levels).WellFormed 2 := by
  induction levels with
  | zero => exact .keys "a"
  | succ levels ih => exact .group (by simp) (by simpa using ⟨.keys "a", ih⟩)

theorem height_tower (levels : Nat) : (tower levels).height = levels := by
  induction levels with
  | zero => simp [tower]
  | succ levels ih => simp [tower, height, ih]

theorem eq_of_mem_leaves_tower {levels : Nat} {text : String}
    (inside : text ∈ (tower levels).leaves) : text = "a" := by
  induction levels with
  | zero => simpa [tower, leaves] using inside
  | succ levels ih =>
    simp only [tower, leaves, List.flatMap_cons, List.flatMap_nil, List.append_nil,
      List.singleton_append, List.mem_cons] at inside
    exact inside.elim id ih

end Node

/-- Not counting the outermost group of the collapsed tree, this query nests as deep as the
parser allows, and still it is not read back. -/
theorem Group.parse_toText_tower :
    let query : Group := ⟨.and, false, [Node.tower (maxDepth + 1)]⟩
    query.node.WellFormed 1 ∧ (∀ text ∈ query.leaves, Token.Quotable text) ∧
      query.node.collapse.nesting ≤ maxDepth ∧
      Parser.parse .and (Token.scan query.toText.toList).1 ≠ ⟨some query.node.collapse, []⟩ := by
  intro query
  have wellFormed : query.node.WellFormed 1 :=
    .group (by decide) (by simpa [query] using (Node.wellFormed_tower _).mono (by decide))
  have quotable : ∀ text ∈ query.leaves, Token.Quotable text := by
    intro text inside
    simp only [query, leaves, List.flatMap_cons, List.flatMap_nil, List.append_nil] at inside
    rw [Node.eq_of_mem_leaves_tower inside]
    decide
  have collapsed : query.node.collapse = Node.tower (maxDepth + 1) := by
    rw [node, Node.collapse_single, (Node.wellFormed_tower _).collapse_eq]
  have writable : query.node.Writable := by
    intro text inside
    rw [leaves_node] at inside
    exact (quotable text inside).writable
  refine ⟨wellFormed, quotable, ?_, ?_⟩
  · have notNegated : (Node.tower (maxDepth + 1)).isNegation = false := rfl
    simp [collapsed, Node.nesting, notNegated, Node.height_tower]
  · rw [toText, Node.scan_toText wellFormed writable false, Ne, parse_tokens_node_iff wellFormed]
    simp [writtenDepth, collapsed, query, Node.height_tower]

end SearchKeys
