/-
# Reading a written tree

A written tree that nests no deeper than the parser allows is read as one operand: its tokens
take the parser to the state in which it would be if the whole tree had been handed to it at
once. Nothing is skipped on the way and nothing is recorded.

## Main definitions

* `Parser.State.took`: the parser after the tokens of an operand.

## Main results

* `Parser.run_tokens`: the tokens of a tree are read as that tree.
* `Parser.parse_tokens_nested`, `Parser.parse_tokens`: a written query is parsed into the tree
  that was written.
-/

import SearchKeys.Proofs.Query.Step
import SearchKeys.Proofs.Query.Written

namespace SearchKeys

/-- The tokens of the members of a group behind the first one. -/
def Node.tokensBehind (conjunction : Conjunction) (members : List Node) : List Token :=
  members.flatMap fun member =>
    .operator (.ofConjunction conjunction) :: member.tokens true

/-- The members of a written group, joined by its operator. -/
theorem Node.tokens_group (conjunction : Conjunction) (first second : Node) (rest : List Node) :
    (group conjunction false (first :: second :: rest)).tokens true =
      .openParen :: (first.tokens true ++ tokensBehind conjunction (second :: rest)) ++
        [.closeParen] ∧
    (group conjunction false (first :: second :: rest)).tokens false =
      first.tokens true ++ tokensBehind conjunction (second :: rest) := by
  constructor <;>
    simp [tokens, tokensBehind, intercalate_cons, List.flatMap_map]

namespace Fold

variable {default conjunction : Conjunction}

/-- Operands behind the same operator extend the group it built. -/
theorem foldl_combine_chain (members operands : List Node) :
    members.foldl (fun fold member => fold.combine default conjunction member)
      (chain conjunction operands) = chain conjunction (members.reverse ++ operands) := by
  induction members generalizing operands with
  | nil => rfl
  | cons member members ih =>
    have extended : (chain conjunction operands).combine default conjunction member =
        chain conjunction (member :: operands) := by
      simp [combine]
    rw [List.foldl_cons, extended, ih]
    simp

/-- Operands behind one operator make up a group with what stood in front of them. -/
theorem foldl_combine_run (first second : Node) (rest : List Node) :
    (second :: rest).foldl (fun fold member => fold.combine default conjunction member)
      (run [first]) = chain conjunction ((first :: second :: rest).reverse) := by
  have joined : (run [first]).combine default conjunction second =
      chain conjunction [second, first] := rfl
  rw [List.foldl_cons, joined, foldl_combine_chain]
  simp

end Fold

namespace Parser

variable {default conjunction : Conjunction} {state : State} {frame around : Frame}
  {outer : List Frame} {depth : Nat} {fold : Fold}

/-! ### Single tokens -/

/-- The parser after `count` tokens that were read as the operand. -/
def State.took (default : Conjunction) (operand : Node) (count : Nat) (state : State) : State :=
  { state.resolve default (some operand) with position := state.position + count }

theorem step_key (default : Conjunction) {token : Token} {text : String}
    (carries : token.key? = some text) :
    step default state token = state.took default (.keys text) 1 := by
  cases token <;> cases carries <;> rfl

theorem step_not (default : Conjunction) (room : state.frame.operandDepth < maxDepth) :
    step default state (.operator .not) =
      { state with
        frame := { state.frame with negations := state.position :: state.frame.negations }
        position := state.position + 1 } := by
  have notLimit : state.atLimit = false := by simpa [State.atLimit] using room
  simp [step, State.take, State.negate, notLimit]

theorem step_openParen (default : Conjunction) (room : state.frame.operandDepth < maxDepth) :
    step default state .openParen =
      { state with
        frame := .fresh (state.frame.operandDepth + 1)
        outer := state.frame :: state.outer
        position := state.position + 1 } := by
  have notLimit : state.atLimit = false := by simpa [State.atLimit] using room
  simp [step, State.take, State.openGroup, notLimit]

theorem step_operator (default conjunction : Conjunction)
    (resting : state.frame = ⟨depth, fold, none, []⟩) :
    step default state (.operator (.ofConjunction conjunction)) =
      { state with
        frame := ⟨depth, fold, some (conjunction, state.position), []⟩
        position := state.position + 1 } := by
  obtain ⟨_, outer, position, skipped, limited, warnings⟩ := state
  obtain rfl := resting
  cases conjunction <;> rfl

theorem step_closeParen (default : Conjunction)
    (resting : state.frame = ⟨depth, fold, none, []⟩) (inside : state.outer = around :: outer)
    (noneSkipped : state.skipped = 0) :
    step default state .closeParen =
      { ({ state with frame := around, outer := outer } : State).resolve default
          (fold.finish default) with position := state.position + 1 } := by
  obtain ⟨_, _, position, _, limited, warnings⟩ := state
  obtain rfl := resting
  obtain rfl := inside
  obtain rfl := noneSkipped
  rfl

/-- An operand behind an operator is combined with what was folded before. -/
theorem took_behind_operator (default : Conjunction) (operand : Node) (count position : Nat)
    (notEmpty : fold.isEmpty = false)
    (waiting : state.frame = ⟨depth, fold, some (conjunction, position), []⟩) :
    state.took default operand count =
      { state with
        frame := ⟨depth, fold.combine default conjunction operand, none, []⟩
        position := state.position + count } := by
  simp [State.took, State.resolve, State.record, waiting, Frame.accept, notEmpty]

/-- An operand in a fresh frame is the first one of its expression. -/
theorem took_fresh (default : Conjunction) (operand : Node) (count : Nat)
    (fresh : state.frame = .fresh depth) :
    state.took default operand count =
      { state with
        frame := ⟨depth, .run [operand], none, []⟩
        position := state.position + count } := by
  simp [State.took, State.resolve, State.record, fresh, Frame.accept, Frame.fresh, Fold.empty,
    Fold.push]

/-! ### Trees -/

/-- Reading a tree as an operand, from every state that leaves room for it. -/
def ReadAs (default : Conjunction) (node : Node) : Prop :=
  ∀ state : State, state.frame.operandDepth + node.height ≤ maxDepth → state.skipped = 0 →
    run default state (node.tokens true) =
      state.took default node (node.tokens true).length

/-- Members behind the operator of their group are combined with what was folded before. -/
theorem run_tokensBehind (conjunction : Conjunction) {members : List Node}
    (read : ∀ member ∈ members, ReadAs default member)
    (room : ∀ member ∈ members, depth + member.height ≤ maxDepth) (noneSkipped : state.skipped = 0)
    (notEmpty : fold.isEmpty = false) (resting : state.frame = ⟨depth, fold, none, []⟩) :
    run default state (Node.tokensBehind conjunction members) =
      { state with
        frame := ⟨depth, members.foldl (fun fold member =>
          fold.combine default conjunction member) fold, none, []⟩
        position := state.position + (Node.tokensBehind conjunction members).length } := by
  -- every member finds a frame that has folded the members before it and waits for nothing
  induction members generalizing state fold with
  | nil => simp [Node.tokensBehind, ← resting]
  | cons member members ih =>
    obtain ⟨readFirst, readOthers⟩ := List.forall_mem_cons.1 read
    obtain ⟨roomFirst, roomOthers⟩ := List.forall_mem_cons.1 room
    have joined := step_operator default conjunction resting
    have here : (step default state (.operator (.ofConjunction conjunction))).frame.operandDepth +
        member.height ≤ maxDepth := by
      simpa [joined, Frame.operandDepth] using roomFirst
    have taken := took_behind_operator default member (member.tokens true).length
      state.position notEmpty (congrArg State.frame joined)
    have noneSkipped' : ((step default state (.operator (.ofConjunction conjunction))).took default
        member (member.tokens true).length).skipped = 0 := by
      rw [taken, joined]
      exact noneSkipped
    have behind := ih readOthers roomOthers noneSkipped' (Fold.isEmpty_combine ..)
      (congrArg State.frame taken)
    rw [Node.tokensBehind, List.flatMap_cons, List.cons_append, run_cons, run_append,
      readFirst _ here (by rw [joined]; exact noneSkipped), ← Node.tokensBehind, behind, taken,
      joined]
    simp only [List.foldl_cons, List.length_cons, List.length_append]
    congr 1
    omega

/-- The members of a group are read into the frame of its parentheses. -/
theorem run_members (conjunction : Conjunction) {first second : Node} {rest : List Node}
    (read : ∀ member ∈ first :: second :: rest, ReadAs default member)
    (room : ∀ member ∈ first :: second :: rest, depth + member.height ≤ maxDepth)
    (noneSkipped : state.skipped = 0) (fresh : state.frame = .fresh depth) :
    run default state
        (first.tokens true ++ Node.tokensBehind conjunction (second :: rest)) =
      { state with
        frame := ⟨depth, .chain conjunction (first :: second :: rest).reverse, none, []⟩
        position := state.position +
          (first.tokens true ++ Node.tokensBehind conjunction (second :: rest)).length } := by
  obtain ⟨readFirst, readOthers⟩ := List.forall_mem_cons.1 read
  obtain ⟨roomFirst, roomOthers⟩ := List.forall_mem_cons.1 room
  have here : state.frame.operandDepth + first.height ≤ maxDepth := by
    simpa [fresh, Frame.operandDepth, Frame.fresh] using roomFirst
  have taken := took_fresh default first (first.tokens true).length fresh
  have noneSkipped' : (state.took default first (first.tokens true).length).skipped = 0 :=
    noneSkipped
  have behind := run_tokensBehind conjunction readOthers roomOthers noneSkipped' rfl
    (congrArg State.frame taken)
  rw [run_append, readFirst state here noneSkipped, behind, taken, Fold.foldl_combine_run,
    List.length_append]
  simp only [Nat.add_assoc]

/-- A written tree is read as one operand if it does not nest too deep where it stands. -/
theorem run_tokens {node : Node} (wellFormed : node.WellFormed 2) : ReadAs default node := by
  induction wellFormed with
  | keys text =>
    intro state _ _
    rw [Node.tokens]
    exact step_key default (Token.key?_ofKey text)
  | @not child _ ih =>
    intro state room noneSkipped
    rw [Node.height_not] at room
    rw [Node.tokens_not, run_cons, step_not default (by omega), ih]
    · simp only [State.took, List.length_cons]
      congr 1
      omega
    · simp only [Frame.operandDepth, List.length_cons] at room ⊢
      omega
    · exact noneSkipped
  | @group conjunction children enough _ ih =>
    intro state room noneSkipped
    obtain ⟨first, second, rest, rfl⟩ := Node.exists_cons_cons enough
    -- the parentheses open a frame one level deeper, and every member is one level lower
    have inside : ∀ child ∈ first :: second :: rest,
        state.frame.operandDepth + 1 + child.height ≤ maxDepth := by
      intro child member
      have lower := Node.height_lt_of_mem conjunction false member
      omega
    have below : state.frame.operandDepth < maxDepth := by
      have room := inside first (.head _)
      omega
    have opened := step_openParen default below
    have noneSkipped' : (step default state .openParen).skipped = 0 := by
      rw [opened]
      exact noneSkipped
    -- what the frame has folded at its end becomes an operand of the frame around it
    have members := run_members conjunction ih inside noneSkipped' (congrArg State.frame opened)
    rw [opened] at members
    have closed := step_closeParen default (congrArg State.frame members)
      (congrArg State.outer members) ((congrArg State.skipped members).trans noneSkipped)
    rw [(Node.tokens_group ..).1, List.cons_append, run_cons, run_append, opened, run_cons,
      run_nil, closed, members]
    simp only [State.took, Fold.finish, List.reverse_reverse, List.length_cons,
      List.length_append, List.length_nil]
    congr 1
    omega

/-! ### Whole queries -/

/-- A tree written as a nested one is parsed into itself. -/
theorem parse_tokens_nested {node : Node} (wellFormed : node.WellFormed 2)
    (room : node.height ≤ maxDepth) : parse default (node.tokens true) = ⟨some node, []⟩ := by
  have here : State.initial.frame.operandDepth + node.height ≤ maxDepth := by
    simpa [State.initial, Frame.fresh, Frame.operandDepth] using room
  rw [parse, run_tokens wellFormed .initial here rfl]
  rfl

/-- A tree written without parentheses around it is parsed into itself. -/
theorem parse_tokens {node : Node} (wellFormed : node.WellFormed 2)
    (room : node.nesting ≤ maxDepth) : parse default (node.tokens false) = ⟨some node, []⟩ := by
  cases wellFormed with
  | keys text =>
    have same : (Node.keys text).tokens false = (Node.keys text).tokens true := by
      simp [Node.tokens]
    rw [same]
    exact parse_tokens_nested (.keys text) (by simp)
  | @not child inner =>
    rw [Node.tokens_not, ← Node.tokens_not true]
    exact parse_tokens_nested (.not inner) room
  | @group conjunction children enough inner =>
    obtain ⟨first, second, rest, rfl⟩ := Node.exists_cons_cons enough
    have inside : ∀ child ∈ first :: second :: rest, 0 + child.height ≤ maxDepth := by
      intro child member
      have lower := Node.height_lt_of_mem conjunction false member
      have limit : (Node.group conjunction false (first :: second :: rest)).height - 1 ≤
          maxDepth := room
      omega
    have fresh : State.initial.frame = .fresh 0 := rfl
    rw [parse, (Node.tokens_group ..).2, run_members conjunction
      (fun child member => run_tokens (inner child member)) inside rfl fresh]
    simp [State.finish, State.closeAll, State.initial, Frame.abandon, Fold.finish]

end Parser

end SearchKeys
