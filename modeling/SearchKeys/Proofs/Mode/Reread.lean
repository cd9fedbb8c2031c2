/-
# Reading back queries without operators

The terms mode and the phrase mode read parentheses, operators and backslashes as parts of keys,
and the keys that they find may contain anything visible. Their queries are flat: written as keys
they need no parentheses, and a boolean query of the same shape is read back, whatever its keys
are called. There is one exception. The keys language has no way to write a key that must stand in
quotes and ends in a backslash.

## Main definitions

* `Group.unwrapped`: what a query stands for if its outermost group leaves no trace.

## Main results

* `Terms.query?_cases`: a query without operators is a key, a negated key, or a group of several.
* `Mode.ofBytes?_toText_eq_unwrapped_iff`: it is read back exactly if no key that is quoted ends in
  a backslash.
-/

import SearchKeys.Proofs.Query.Collapse
import SearchKeys.Proofs.Query.Misread
import SearchKeys.Proofs.Query.Proper

namespace SearchKeys

namespace Group

/-- The negation that is the only child of an `AND` group, and any other query as it is. -/
def unwrapped : Group → Group
  | ⟨.and, false, [.group conjunction true children]⟩ => ⟨conjunction, true, children⟩
  | query => query

theorem leaves_unwrapped (query : Group) : query.unwrapped.leaves = query.leaves := by
  unfold unwrapped
  split
  · simp [leaves, Node.leaves]
  · rfl

theorem unwrapped_of_several {query : Group} (several : 2 ≤ query.children.length) :
    query.unwrapped = query := by
  obtain ⟨conjunction, negated, children⟩ := query
  obtain ⟨first, second, rest, rfl⟩ := Node.exists_cons_cons several
  rw [unwrapped.eq_2]
  simp

end Group

namespace Terms

variable {default : Conjunction} {items : List Item} {query : Group}

/-- A query without operators is a key, a negated key, or a group of several. -/
theorem query?_cases (isQuery : query? default items = some query) :
    (∃ text, query = ⟨default, false, [.keys text]⟩) ∨
    (∃ text, query = ⟨.and, false, [(Node.keys text).not]⟩) ∨
    2 ≤ query.children.length ∧ query.node.WellFormed 2 ∧ query.node.height ≤ 2 := by
  obtain ⟨notEmpty, rfl⟩ := query?_eq_some_iff.1 isQuery
  -- a single item that is excluded is in an `AND` group, any other keeps the conjunction
  match items with
  | [⟨false, token⟩] => exact .inl ⟨token.value, rfl⟩
  | [⟨true, token⟩] => exact .inr (.inl ⟨token.value, rfl⟩)
  | first :: second :: rest =>
    refine .inr (.inr ⟨by simp, .group (by simp) ?_, ?_⟩)
    · exact List.forall_mem_map.2 fun item _ => item.wellFormed_node 2
    · rw [Group.node, Node.height_group_le_iff]
      refine List.forall_mem_map.2 fun item _ => ?_
      rw [Item.node]
      split <;> simp

/-- Written as keys it never nests too deep. -/
theorem writtenDepth_le (isQuery : query? default items = some query) :
    query.writtenDepth ≤ maxDepth := by
  rw [Group.writtenDepth]
  rcases query?_cases isQuery with ⟨text, rfl⟩ | ⟨text, rfl⟩ | ⟨several, wellFormed, low⟩
  · simp [Group.node, Node.collapse_single]
  · simp [Group.node, Node.collapse_single, maxDepth]
  · rw [if_neg (by omega), wellFormed.collapse_eq, Node.nesting]
    have room : 2 ≤ maxDepth := by decide
    split <;> omega

theorem ofNode?_collapse (isQuery : query? default items = some query) :
    Group.ofNode? default (some query.node.collapse) = some query.unwrapped := by
  rcases query?_cases isQuery with ⟨text, rfl⟩ | ⟨text, rfl⟩ | ⟨several, wellFormed, -⟩
  · rw [Group.node, Node.collapse_single, Node.collapse_keys]
    cases default <;> rfl
  · rw [Group.node, Node.collapse_single, Node.collapse_not, Node.collapse_keys]
    rfl
  · rw [wellFormed.collapse_eq, Group.unwrapped_of_several several,
      Group.ofNode?_node (Group.children_ne_nil (by decide) wellFormed)]

end Terms

namespace Mode

variable {default : Conjunction} {keys : List UInt8} {query : Group}

/-- A query of a mode without operators is read back from the keys that it is written as exactly
if no key that is quoted ends in a backslash. A query that is a negation comes back without the
group around it. -/
theorem ofBytes?_toText_eq_unwrapped_iff {mode : Mode}
    (plain : mode = terms default ∨ mode = phrase default)
    (isQuery : mode.query? keys = some query) :
    Query.ofBytes? default (Text.encode query.toText.toList) = some query.unwrapped ↔
      ∀ key ∈ query.leaves, Token.needsQuotes key → key.toList.getLast? ≠ some '\\' := by
  obtain ⟨items, isQuery, visible⟩ := exists_items plain isQuery
  have proper := Terms.query?_proper isQuery visible
  have keysVisible : ∀ key ∈ query.leaves, ¬Text.allBlank key.toList := by
    simpa [Text.allBlank] using proper.visible
  -- every key is visible, so only a backslash at its end can be in the way of writing it
  have writable_iff : query.node.Writable ↔
      ∀ key ∈ query.leaves, Token.needsQuotes key → key.toList.getLast? ≠ some '\\' := by
    rw [Node.Writable, query.leaves_node]
    refine forall₂_congr fun key member => ?_
    simp [Token.Writable, keysVisible key member, Segment.EndsOpen]
  rw [← writable_iff]
  constructor
  · intro read
    exact Query.writable_of_leaves_eq proper.outermost keysVisible read query.leaves_unwrapped
  · intro writable
    have scanned := Node.scan_toText proper.outermost writable false
    have parsed := (Group.parse_tokens_node_iff proper.outermost default).2
      (Terms.writtenDepth_le isQuery)
    rw [Query.ofBytes?_encode, Group.toText, scanned, parsed]
    exact Terms.ofNode?_collapse isQuery

/-- An excluded word with parentheses in it is read back as a negation. -/
theorem ofBytes?_toText_excluded :
    let query : Group := ⟨.and, false, [(Node.keys "(a)").not]⟩
    (terms .or).query? (Text.encode "-(a)".toList) = some query ∧
      (∀ key ∈ query.leaves, Token.needsQuotes key → key.toList.getLast? ≠ some '\\') ∧
      Query.ofBytes? .or (Text.encode query.toText.toList) =
        some ⟨.and, true, [.keys "(a)"]⟩ := by
  intro query
  have isQuery : (terms .or).query? (Text.encode "-(a)".toList) = some query :=
    query?_terms_excluded (by decide) (List.all_eq_true.1 (by decide))
  have closed : ∀ key ∈ query.leaves, Token.needsQuotes key →
      key.toList.getLast? ≠ some '\\' := by
    have leaves : query.leaves = ["(a)"] := by simp [query, Group.leaves, Node.leaves]
    rw [leaves]
    decide
  exact ⟨isQuery, closed, (ofBytes?_toText_eq_unwrapped_iff (.inl rfl) isQuery).2 closed⟩

/-- A phrase that ends in a backslash is not read back. -/
theorem ofBytes?_toText_ne_unwrapped :
    let query : Group := ⟨.and, false, [.keys "a b\\"]⟩
    (phrase .and).query? (Text.encode "a b\\".toList) = some query ∧
      Query.ofBytes? .and (Text.encode query.toText.toList) ≠ some query.unwrapped := by
  intro query
  have leaves : query.leaves = ["a b\\"] := by simp [query, Group.leaves, Node.leaves]
  have wellFormed : query.node.WellFormed 1 := by
    refine .group (by simp [query]) ?_
    simpa [query] using .keys _
  have isQuery : (phrase .and).query? (Text.encode "a b\\".toList) = some query :=
    query?_eq_some_iff.2 ⟨_, analyze_ofText .., by decide⟩
  refine ⟨isQuery, fun read => ?_⟩
  have writable := Query.writable_of_leaves_eq wellFormed (by rw [leaves]; decide) read
    query.leaves_unwrapped
  rw [Node.Writable, query.leaves_node, leaves] at writable
  exact (writable _ (.head _) (by decide)).2 (by simp [Segment.EndsOpen])

end Mode

end SearchKeys
