/-
# Reading back a query that was read

Writing a query that was read and reading it again does not always give the same query: the
parser builds groups of an expression without any parentheses, but they are written with them,
and parentheses are limited. Where a written group would nest too deep its parentheses are
skipped, which does no harm if the group is flat and nothing around it is negated.

## Main definitions

* `Group.HasRoom`: the parentheses and negations of a written query do not nest too deep.

## Main results

* `Parser.readsBack`: a nested tree is read back exactly if it has room, unless a token is lost.
* `Group.parse_tokens_eq_iff`: a query with several children in each group is read back exactly
  if it has room.
* `Query.ofBytes?_toText_eq_some_iff`: so is every query that was read.
-/

import SearchKeys.Proofs.Query.Inline
import SearchKeys.Proofs.Query.Collapse
import SearchKeys.Proofs.Query.Proper

namespace SearchKeys

namespace Parser

variable {default conjunction : Conjunction} {state : State} {frame around : Frame}
  {outer : List Frame} {depth : Nat} {fold : Fold}

theorem is_step_not (default : Conjunction) (room : state.frame.operandDepth < maxDepth) :
    (step default state (.operator .not)).Is
      ⟨state.frame.depth, state.frame.fold, state.frame.joiner,
        state.position :: state.frame.negations⟩ state.outer state.skipped := by
  rw [step_not default room]
  exact ⟨rfl, rfl, rfl⟩

theorem is_step_openParen (default : Conjunction) (room : state.frame.operandDepth < maxDepth) :
    (step default state .openParen).Is (.fresh (state.frame.operandDepth + 1))
      (state.frame :: state.outer) state.skipped := by
  rw [step_openParen default room]
  exact ⟨rfl, rfl, rfl⟩

theorem is_step_closeParen {result : Node} (finished : fold.finish default = some result)
    (resting : state.Is ⟨depth, fold, none, []⟩ (around :: outer) 0) :
    (step default state .closeParen).Is (around.accept default result).1 outer 0 := by
  rw [step_closeParen default resting.frame_eq resting.outer_eq resting.skipped_eq, finished]
  exact ⟨rfl, rfl, resting.skipped_eq⟩

/-- A nested tree is read as a single operand, unless a token is lost. The operand is the tree
itself exactly if the tree has room where it stands, and if a token is lost, it has none. -/
def ReadsBackFrom (default : Conjunction) (state : State) (node : Node) : Prop :=
  Loses default state (node.tokens true) ∧
    ¬state.frame.operandDepth + node.brackets ≤ maxDepth ∨
  ∃ result, (run default state (node.tokens true)).Is
      (state.frame.accept default result).1 state.outer 0 ∧
    (result = node ↔ state.frame.operandDepth + node.brackets ≤ maxDepth)

/-- A nested tree is read like this from every state below the limit. -/
def ReadsBack (default : Conjunction) (node : Node) : Prop :=
  ∀ state : State, state.frame.depth < maxDepth → state.frame.operandDepth ≤ maxDepth →
    state.skipped = 0 → ReadsBackFrom default state node

theorem readsBack_keys (text : String) : ReadsBack default (.keys text) := by
  intro state _ shallow noneSkipped
  have taken := is_step_key default (Token.key?_ofKey text) state
  rw [noneSkipped] at taken
  rw [ReadsBackFrom, Node.tokens]
  exact .inr ⟨.keys text, taken, by simpa using shallow⟩

theorem readsBack_not {child : Node} (reads : ReadsBack default child) :
    ReadsBack default child.not := by
  intro state below shallow noneSkipped
  rw [ReadsBackFrom, Node.tokens_not, Node.brackets_not, Loses, run_cons]
  by_cases room : state.frame.operandDepth < maxDepth
  · have negated := is_step_not default room
    have deeper : (step default state (.operator .not)).frame.operandDepth =
        state.frame.operandDepth + 1 := by
      rw [negated.frame_eq]
      exact (Nat.add_assoc ..).symm
    rcases reads _ (by rw [negated.frame_eq]; exact below) (by omega)
      (negated.skipped_eq.trans noneSkipped) with ⟨loses, noRoom⟩ | ⟨result, is, same⟩
    · exact .inl ⟨.inr loses, by omega⟩
    · refine .inr ⟨result.not, ?_, ?_⟩
      · -- the operand takes the `NOT` along with those in front of it
        rw [negated.frame_eq, negated.outer_eq, Frame.accept_fst] at is
        rw [Frame.accept_fst]
        exact is
      · rw [deeper, Nat.add_assoc, Nat.add_comm 1] at same
        rw [← same]
        simp [Node.not]
  · exact .inl ⟨.inl ⟨by omega, .inl rfl⟩, by omega⟩

/-- Members behind the operator of their group, in a frame below the limit. -/
theorem run_tokensBehind_back (conjunction : Conjunction) {members : List Node}
    (reads : ∀ member ∈ members, ReadsBack default member) (below : depth < maxDepth)
    (resting : state.Is ⟨depth, fold, none, []⟩ outer 0) :
    Loses default state (Node.tokensBehind conjunction members) ∧
      ¬(∀ member ∈ members, depth + member.brackets ≤ maxDepth) ∨
    ∃ results, results.length = members.length ∧
      (run default state (Node.tokensBehind conjunction members)).Is
        ⟨depth, results.foldl (fun fold member =>
          fold.combine default conjunction member) fold, none, []⟩ outer 0 ∧
      (results = members ↔ ∀ member ∈ members, depth + member.brackets ≤ maxDepth) := by
  induction members generalizing state fold with
  | nil => exact .inr ⟨[], rfl, resting, by simp⟩
  | cons member members ih =>
    obtain ⟨readsFirst, readsOthers⟩ := List.forall_mem_cons.1 reads
    have joined := is_step_operator default conjunction resting.frame_eq
    have here : (step default state
        (.operator (.ofConjunction conjunction))).frame.operandDepth = depth := by
      rw [joined.frame_eq]
      rfl
    rw [Node.tokensBehind, List.flatMap_cons, List.cons_append, ← Node.tokensBehind, run_cons,
      run_append, Loses, loses_append, List.forall_mem_cons]
    rcases readsFirst _ (by rw [joined.frame_eq]; exact below) (by omega)
      (joined.skipped_eq.trans resting.skipped_eq) with ⟨loses, noRoom⟩ | ⟨result, is, same⟩
    · rw [here] at noRoom
      exact .inl ⟨.inr (.inl loses), fun room => noRoom room.1⟩
    · have combined : (run default (step default state
          (.operator (.ofConjunction conjunction))) (member.tokens true)).Is
          ⟨depth, fold.combine default conjunction result, none, []⟩ outer 0 := by
        rw [joined.frame_eq, joined.outer_eq, resting.outer_eq, Frame.accept_fst] at is
        exact is
      rw [here] at same
      rcases ih readsOthers combined with ⟨loses, noRoom⟩ | ⟨results, length, is', same'⟩
      · exact .inl ⟨.inr (.inr loses), fun room => noRoom room.2⟩
      · refine .inr ⟨result :: results, by simp [length], is', ?_⟩
        rw [List.cons.injEq, same, same']

/-- The members of a group below the limit are read one by one. -/
theorem run_members_back (conjunction : Conjunction) {first second : Node} {rest : List Node}
    (reads : ∀ member ∈ first :: second :: rest, ReadsBack default member)
    (below : depth < maxDepth) (fresh : state.Is (.fresh depth) outer 0) :
    Loses default state (first.tokens true ++ Node.tokensBehind conjunction (second :: rest)) ∧
      ¬(∀ member ∈ first :: second :: rest, depth + member.brackets ≤ maxDepth) ∨
    ∃ results : List Node, (run default state
        (first.tokens true ++ Node.tokensBehind conjunction (second :: rest))).Is
        ⟨depth, .chain conjunction results.reverse, none, []⟩ outer 0 ∧
      (results = first :: second :: rest ↔
        ∀ member ∈ first :: second :: rest, depth + member.brackets ≤ maxDepth) := by
  obtain ⟨readsFirst, readsOthers⟩ := List.forall_mem_cons.1 reads
  have here : state.frame.operandDepth = depth := by
    rw [fresh.frame_eq]
    rfl
  rw [run_append, loses_append, List.forall_mem_cons]
  rcases readsFirst state (by rw [fresh.frame_eq]; exact below) (by omega) fresh.skipped_eq with
    ⟨loses, noRoom⟩ | ⟨result, is, same⟩
  · rw [here] at noRoom
    exact .inl ⟨.inl loses, fun room => noRoom room.1⟩
  · have alone : (run default state (first.tokens true)).Is
        ⟨depth, .run [result], none, []⟩ outer 0 := by
      rw [fresh.frame_eq, fresh.outer_eq, Frame.accept_fst] at is
      exact is
    rw [here] at same
    rcases run_tokensBehind_back conjunction readsOthers below alone with
      ⟨loses, noRoom⟩ | ⟨results, length, is', same'⟩
    · exact .inl ⟨.inr loses, fun room => noRoom room.2⟩
    · refine .inr ⟨result :: results, ?_, by rw [List.cons.injEq, same, same']⟩
      obtain ⟨second', rest', rfl⟩ : ∃ second' rest', results = second' :: rest' :=
        List.exists_cons_of_length_pos (by simp [length])
      rwa [Fold.foldl_combine_run] at is'

section Groups

variable {first second : Node} {rest : List Node}

/-- A group with room for more than one level below it is read member by member. -/
theorem readsBackFrom_group (deeper : state.frame.operandDepth + 1 < maxDepth)
    (noneSkipped : state.skipped = 0)
    (reads : ∀ member ∈ first :: second :: rest, ReadsBack default member) :
    ReadsBackFrom default state (.group conjunction false (first :: second :: rest)) := by
  have opened := is_step_openParen default (Nat.lt_of_succ_lt deeper)
  rw [noneSkipped] at opened
  rw [ReadsBackFrom, Node.brackets_group_fits_iff deeper, (Node.tokens_group ..).1,
    List.cons_append, run_cons, run_append, Loses, loses_append]
  rcases run_members_back conjunction reads deeper opened with
    ⟨loses, noRoom⟩ | ⟨results, is, same⟩
  · exact .inl ⟨.inr (.inl loses), noRoom⟩
  · have finished : (Fold.chain conjunction results.reverse).finish default =
        some (.group conjunction false results) := by
      simp [Fold.finish]
    have closed := is_step_closeParen finished is
    exact .inr ⟨.group conjunction false results, closed, by simpa using same⟩

/-- A group with room for one level only is read without the parentheses inside it. -/
theorem readsBackFrom_group_inline (last : state.frame.operandDepth + 1 = maxDepth)
    (noneSkipped : state.skipped = 0)
    (wellFormed : (Node.group conjunction false (first :: second :: rest)).WellFormed 2)
    (inner : ∀ member ∈ first :: second :: rest, member.WellFormed 2) :
    ReadsBackFrom default state (.group conjunction false (first :: second :: rest)) := by
  have below : state.frame.operandDepth < maxDepth := by omega
  have opened := is_step_openParen default below
  rw [noneSkipped] at opened
  have inlines : (step default state .openParen).frame.Inlines default conjunction := by
    rw [opened.frame_eq]
    exact inlines_fresh last.ge
  -- only a flat group has room here
  have room : state.frame.operandDepth +
        (Node.group conjunction false (first :: second :: rest)).brackets ≤ maxDepth ↔
      (Node.group conjunction false (first :: second :: rest)).isFlat := by
    rw [← last, Nat.add_le_add_iff_left, Node.brackets_group_le_one_iff (by simp)]
  rw [ReadsBackFrom, room, (Node.tokens_group ..).1, List.cons_append, run_cons, run_append,
    Loses, loses_append]
  rcases run_members_inline conjunction (fun child member => readInline (inner child member))
    inlines with ⟨loses, notFlat⟩ | is
  · exact .inl ⟨.inr (.inl loses), notFlat⟩
  · rw [opened.frame_eq, opened.outer_eq, opened.skipped_eq] at is
    obtain ⟨result, finished, same⟩ :=
      Fold.exists_finish_combineKeys default conjunction wellFormed
    exact .inr ⟨result, is_step_closeParen finished is, same⟩

/-- A group at the limit loses its parenthesis, because negations wait in front of it. -/
theorem readsBackFrom_group_limit (below : state.frame.depth < maxDepth)
    (limit : maxDepth ≤ state.frame.operandDepth) :
    ReadsBackFrom default state (.group conjunction false (first :: second :: rest)) := by
  have waiting : state.frame.negations ≠ [] := by
    intro none
    rw [Frame.operandDepth, none] at limit
    exact Nat.not_le_of_gt below limit
  have positive := Node.brackets_group_pos conjunction false (first :: second :: rest)
  rw [ReadsBackFrom, (Node.tokens_group ..).1, List.cons_append, Loses]
  exact .inl ⟨.inl ⟨limit, .inr ⟨rfl, waiting⟩⟩, by omega⟩

end Groups

theorem readsBack_group {children : List Node} (enough : 2 ≤ children.length)
    (inner : ∀ child ∈ children, child.WellFormed 2)
    (reads : ∀ child ∈ children, ReadsBack default child) :
    ReadsBack default (.group conjunction false children) := by
  intro state below shallow noneSkipped
  have wellFormed : (Node.group conjunction false children).WellFormed 2 := .group enough inner
  obtain ⟨first, second, rest, rfl⟩ := Node.exists_cons_cons enough
  rcases Nat.lt_trichotomy (state.frame.operandDepth + 1) maxDepth with deeper | last | limit
  · exact readsBackFrom_group deeper noneSkipped reads
  · exact readsBackFrom_group_inline last noneSkipped wellFormed inner
  · exact readsBackFrom_group_limit below (Nat.le_of_lt_succ limit)

/-- A nested tree is read back below the limit exactly if it has room, unless a token is lost. -/
theorem readsBack (default : Conjunction) {node : Node} (wellFormed : node.WellFormed 2) :
    ReadsBack default node := by
  induction wellFormed with
  | keys text => exact readsBack_keys text
  | not _ ih => exact readsBack_not ih
  | group enough inner ih => exact readsBack_group enough inner ih

/-- A tree that comes back has lost no token on the way. -/
theorem not_loses_of_parse {node : Node} (wellFormed : node.WellFormed 2) {nested : Bool}
    (parsed : (parse default (node.tokens nested)).node = some node) :
    ¬Loses default .initial (node.tokens nested) := by
  intro loses
  have lighter := weight_parse_lt loses parsed
  rw [Node.cost_tokens wellFormed] at lighter
  exact Nat.lt_irrefl _ lighter

theorem parse_of_is {tokens : List Token} (is : (run default .initial tokens).Is frame [] 0) :
    (parse default tokens).node = frame.fold.finish default := by
  rw [parse_node, is.frame_eq, is.outer_eq]
  rfl

end Parser

namespace Group

variable {default : Conjunction} {query : Group}

/-- The negations and the parentheses of the query as it is written nest no deeper than the
parser allows, where a flat group takes one pair of parentheses for all groups in it. -/
def HasRoom (query : Group) : Prop :=
  if query.negated then query.node.brackets ≤ maxDepth
  else ∀ child ∈ query.children, child.brackets ≤ maxDepth

instance (query : Group) : Decidable query.HasRoom :=
  inferInstanceAs (Decidable (if query.negated then query.node.brackets ≤ maxDepth
    else ∀ child ∈ query.children, child.brackets ≤ maxDepth))

/-- A query with several children in each group comes back exactly if it has room. -/
theorem parse_tokens_eq_iff (wellFormed : query.node.WellFormed 2) :
    (Parser.parse default (query.node.tokens false)).node = some query.node ↔ query.HasRoom := by
  have notLost (parsed : (Parser.parse default (query.node.tokens false)).node = some query.node) :=
    Parser.not_loses_of_parse wellFormed parsed
  obtain ⟨conjunction, negated, children⟩ := query
  simp only [node, HasRoom] at wellFormed notLost ⊢
  cases wellFormed with
  | @not child inner =>
    have reads := Parser.readsBack default (.not inner) .initial (by decide) (by decide) rfl
    rw [← Node.not, Node.tokens_not, ← Node.tokens_not true] at notLost ⊢
    have atStart : Parser.State.initial.frame.operandDepth = 0 := rfl
    rw [Parser.ReadsBackFrom, atStart, Nat.zero_add] at reads
    rcases reads with ⟨loses, noRoom⟩ | ⟨result, is, same⟩
    · exact ⟨fun parsed => absurd loses (notLost parsed), fun room => absurd room noRoom⟩
    · have alone : (Parser.parse default (child.not.tokens true)).node = some result := by
        rw [Parser.parse_of_is is]
        rfl
      rw [alone, Option.some.injEq]
      exact same
  | group enough inner =>
    obtain ⟨first, second, rest, rfl⟩ := Node.exists_cons_cons enough
    rw [(Node.tokens_group ..).2] at notLost ⊢
    have fresh : Parser.State.initial.Is (.fresh 0) [] 0 := ⟨rfl, rfl, rfl⟩
    rcases Parser.run_members_back conjunction
      (fun child member => Parser.readsBack default (inner child member)) (by decide) fresh with
      ⟨loses, noRoom⟩ | ⟨results, is, same⟩
    · simp only [Nat.zero_add] at noRoom
      exact ⟨fun parsed => absurd loses (notLost parsed), fun room => absurd room noRoom⟩
    · simp only [Nat.zero_add] at same
      rw [Parser.parse_of_is is]
      simpa [Fold.finish] using same

/-- A group with several children only comes from itself. -/
theorem ofNode?_eq_some_iff (wellFormed : query.node.WellFormed 2) {node : Option Node} :
    ofNode? default node = some query ↔ node = some query.node := by
  constructor
  · intro made
    rcases node with _ | text | ⟨conjunction, negated, _ | ⟨first, rest⟩⟩
    · cases made
    · obtain rfl := Option.some.inj made
      cases wellFormed with
      | group enough _ => simp at enough
    · cases made
    · obtain rfl := Option.some.inj made
      rfl
  · rintro rfl
    exact ofNode?_node (children_ne_nil (by decide) wellFormed)

/-- A written query is read back as it was exactly if it has room. -/
theorem ofBytes?_toText_iff (wellFormed : query.node.WellFormed 2)
    (writable : query.node.Writable) :
    Query.ofBytes? default (Text.encode query.toText.toList) = some query ↔ query.HasRoom := by
  rw [Query.ofBytes?_encode, toText,
    Node.scan_toText (wellFormed.mono (by decide)) writable false,
    ofNode?_eq_some_iff wellFormed, parse_tokens_eq_iff wellFormed]

end Group

namespace Query

variable {default : Conjunction} {keys : List UInt8} {query : Group}

/-- Keys with a query in them are a text. -/
theorem exists_text (read : ofBytes? default keys = some query) : ∃ text,
    Group.ofNode? default (Parser.parse default (Token.scan text).1).node = some query := by
  obtain ⟨analysis, analyzed, isQuery⟩ := Mode.query?_eq_some_iff.1 read
  obtain ⟨text, rfl⟩ := Mode.exists_text_of_analyze analyzed
  exact ⟨text, isQuery⟩

/-- All keys of a query that was read can be written. -/
theorem writable_of_read {text : List Char} (made :
    Group.ofNode? default (Parser.parse default (Token.scan text).1).node = some query) :
    query.node.Writable := by
  intro key inside
  rw [Group.leaves_node, Group.leaves_of_ofNode? made, Parser.leaves_parse] at inside
  obtain ⟨token, member, carries⟩ := List.mem_filterMap.1 inside
  exact (Token.visible_and_writable_of_mem_scan member carries).2

/-- A query that was read is written and read back as it was exactly if it has room: the
parentheses that it is written with may nest deeper than those that were read. -/
theorem ofBytes?_toText_eq_some_iff (read : ofBytes? default keys = some query) :
    ofBytes? default (Text.encode query.toText.toList) = some query ↔ query.HasRoom := by
  obtain ⟨text, made⟩ := exists_text read
  have writable := writable_of_read made
  rcases single_or_wellFormed made with ⟨key, rfl⟩ | wellFormed
  · have wellFormed : (Node.group default false [.keys key]).WellFormed 1 :=
      .group (by simp) (by simpa using .keys key)
    -- a single key has no group of several children, but it is one token and comes back too
    have scanned := Node.scan_toText wellFormed writable false
    have alone : (Node.group default false [.keys key]).tokens false = [Token.ofKey key] := by
      simp [Node.tokens]
    have parsed : Parser.parse default [Token.ofKey key] = ⟨some (.keys key), []⟩ := by
      unfold Token.ofKey
      split <;> rfl
    rw [ofBytes?_encode, Group.toText, Group.node, scanned, alone, parsed]
    simp [Group.ofNode?, Group.HasRoom]
  · exact Group.ofBytes?_toText_iff wellFormed writable

/-- A query that was read from a few words is read back. -/
theorem ofBytes?_toText_words :
    let query : Group := ⟨.or, false, [.keys "a", (Node.keys "b").not]⟩
    ofBytes? .and (Text.encode "a OR NOT b".toList) = some query ∧
      (ofBytes? .and (Text.encode query.toText.toList) = some query ↔ query.HasRoom) := by
  intro query
  have words : ∀ token ∈ [Token.term "a", .operator .or, .operator .not, .term "b"],
      Token.Spells token.source.toList [token] := by
    simp only [List.forall_mem_cons, List.not_mem_nil, false_implies, implies_true, and_true]
    exact ⟨Token.spells_term (by decide), Token.spells_operator .or, Token.spells_operator .not,
      Token.spells_term (by decide)⟩
  have spelled : Token.Spells "a OR NOT b".toList
      [.term "a", .operator .or, .operator .not, .term "b"] := Token.spells_words words
  have read : ofBytes? .and (Text.encode "a OR NOT b".toList) = some query := by
    rw [ofBytes?_encode, spelled.scan]
    rfl
  exact ⟨read, ofBytes?_toText_eq_some_iff read⟩

end Query

/-! ### A query that is not read back

`NOT … NOT a AND b OR c` with as many negations as may nest has room for all of them, but as
soon as `NOT … NOT a AND b` stands in parentheses, one negation is too many. -/

theorem Node.brackets_iterate_not (count : Nat) (text : String) :
    (Node.not^[count] (keys text)).brackets = count := by
  induction count with
  | zero => simp
  | succ count ih => rw [Function.iterate_succ_apply', brackets_not, ih]

theorem Node.wellFormed_iterate_not {least : Nat} (count : Nat) (text : String) :
    (Node.not^[count] (keys text)).WellFormed least := by
  induction count with
  | zero => exact .keys text
  | succ count ih =>
    rw [Function.iterate_succ_apply']
    exact .not ih

/-- This query is read from keys that are within all limits, and is not read back from the text
that it is written as. -/
theorem Query.ofBytes?_toText_ne :
    let tokens : List Token := List.replicate maxDepth (.operator .not) ++
      [.term "a", .operator .and, .term "b", .operator .or, .term "c"]
    let text := [' '].intercalate (tokens.map fun token => token.source.toList)
    let query : Group :=
      ⟨.or, false, [.group .and false [Node.not^[maxDepth] (.keys "a"), .keys "b"], .keys "c"]⟩
    (Parser.parse .and (Token.scan text).1).warnings = [] ∧
      ofBytes? .and (Text.encode text) = some query ∧
      ofBytes? .and (Text.encode query.toText.toList) ≠ some query := by
  intro tokens text query
  have spelled : Token.Spells text tokens := by
    refine Token.spells_words fun token member => ?_
    rcases List.mem_append.1 member with negation | rest
    · rw [List.eq_of_mem_replicate negation]
      exact Token.spells_operator .not
    · simp only [List.mem_cons, List.not_mem_nil, or_false] at rest
      rcases rest with rfl | rfl | rfl | rfl | rfl
      · exact Token.spells_term (by decide)
      · exact Token.spells_operator .and
      · exact Token.spells_term (by decide)
      · exact Token.spells_operator .or
      · exact Token.spells_term (by decide)
  have parsed : Parser.parse .and tokens = ⟨some query.node, []⟩ := by decide +kernel
  -- that it does not come back follows from its lack of room, without reading it again
  have wellFormed : query.node.WellFormed 2 := by
    have inner : (Node.group .and false
        [Node.not^[maxDepth] (.keys "a"), .keys "b"]).WellFormed 2 :=
      .group (by simp) (by simpa using ⟨Node.wellFormed_iterate_not _ _, .keys "b"⟩)
    exact .group (by simp [query]) (by simpa [query] using ⟨inner, .keys "c"⟩)
  have made : Group.ofNode? .and (Parser.parse .and (Token.scan text).1).node = some query := by
    rw [spelled.scan, parsed]
    rfl
  refine ⟨by rw [spelled.scan, parsed], by rw [ofBytes?_encode, made], ?_⟩
  rw [Ne, Group.ofBytes?_toText_iff wellFormed (writable_of_read made)]
  intro room
  have first := room (.group .and false [Node.not^[maxDepth] (.keys "a"), .keys "b"]) (.head _)
  have inside := (Node.brackets_group_le_iff _ _ (by decide : 1 ≤ maxDepth - 1)).1 first
    (Node.not^[maxDepth] (.keys "a")) (.head _)
  rw [Node.brackets_iterate_not] at inside
  exact absurd inside (by decide)

end SearchKeys
