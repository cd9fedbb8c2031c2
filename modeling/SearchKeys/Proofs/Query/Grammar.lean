/-
# The grammar of keys

Keys without a fault are an expression: operands with an operator or nothing between them,
where empty groups may stand anywhere except behind an operator or a negation. The grammar
counts the parentheses and negations around each place, so that it can rule out a parenthesis
or a `NOT` where the parser would skip it.

An expression in this sense is read without a trace: apart from the operands that it adds to
the innermost frame, and its position, the parser is in the same state behind it as before.

## Main definitions

* `Grammar.IsOperand`, `Grammar.IsExpression`: the tokens that make up an operand or an
  expression.
* `Parser.ReadsOperand`, `Parser.ReadsExpression`: the parser takes the tokens as an operand or
  an expression, and records nothing.

## Main results

* `Parser.exists_readsOperand`, `Parser.exists_readsExpression`: what the grammar derives is
  read.
* `Parser.ReadsExpression.parse_eq`: a whole query that is read.
-/

import SearchKeys.Proofs.Query.Reading

namespace SearchKeys

theorem Fold.isEmpty_push (node : Node) (fold : Fold) : (fold.push node).isEmpty = false := by
  cases fold <;> rfl

/-- If nothing has been folded, there is no tree. -/
theorem Fold.finish_of_isEmpty {default : Conjunction} {fold : Fold} (empty : fold.isEmpty) :
    fold.finish default = none := by
  cases fold with
  | run members =>
    obtain rfl : members = [] := by simpa [isEmpty] using empty
    rfl
  | chain conjunction operands => simp [isEmpty] at empty

namespace Grammar

mutual

/-- The tokens are an operand that stands inside `depth` parentheses and negations. -/
inductive IsOperand : (depth : Nat) → List Token → Prop
  /-- A term or a phrase. -/
  | key {depth : Nat} {token : Token} {text : String} (carries : token.key? = some text) :
    IsOperand depth [token]
  /-- A negated operand. -/
  | not {depth : Nat} {operand : List Token} (room : depth < maxDepth)
      (isOperand : IsOperand (depth + 1) operand) :
    IsOperand depth (.operator .not :: operand)
  /-- An expression in parentheses that contains an operand. -/
  | parens {depth : Nat} {inner : List Token} (room : depth < maxDepth)
      (isExpression : IsExpression (depth + 1) true inner) :
    IsOperand depth (.openParen :: (inner ++ [.closeParen]))

/-- The tokens are an expression that stands inside `depth` parentheses and negations, with or
without an operand in it. -/
inductive IsExpression : (depth : Nat) → (hasOperand : Bool) → List Token → Prop
  /-- No items. -/
  | nil {depth : Nat} : IsExpression depth false []
  /-- One more operand, with no operator in front of it. -/
  | operand {depth : Nat} {hasOperand : Bool} {before operand : List Token}
      (isExpression : IsExpression depth hasOperand before) (isOperand : IsOperand depth operand) :
    IsExpression depth true (before ++ operand)
  /-- One more operand behind an operator, which needs an operand on its left. -/
  | joined {depth : Nat} {before operand : List Token} (conjunction : Conjunction)
      (isExpression : IsExpression depth true before) (isOperand : IsOperand depth operand) :
    IsExpression depth true (before ++ .operator (.ofConjunction conjunction) :: operand)
  /-- An expression in parentheses that contains no operand. -/
  | emptyGroup {depth : Nat} {hasOperand : Bool} {before inner : List Token}
      (isExpression : IsExpression depth hasOperand before) (room : depth < maxDepth)
      (isEmpty : IsExpression (depth + 1) false inner) :
    IsExpression depth hasOperand (before ++ .openParen :: (inner ++ [.closeParen]))

end

mutual

/-- An operand is one where fewer parentheses and negations stand around it, too. -/
theorem IsOperand.mono {depth depth' : Nat} {tokens : List Token} (fewer : depth' ≤ depth)
    (isOperand : IsOperand depth tokens) : IsOperand depth' tokens := by
  match isOperand with
  | .key carries => exact .key carries
  | .not room isOperand => exact .not (by omega) (isOperand.mono (Nat.succ_le_succ fewer))
  | .parens room isExpression =>
    exact .parens (by omega) (isExpression.mono (Nat.succ_le_succ fewer))

/-- An expression is one where fewer parentheses and negations stand around it, too. -/
theorem IsExpression.mono {depth depth' : Nat} {hasOperand : Bool} {tokens : List Token}
    (fewer : depth' ≤ depth) (isExpression : IsExpression depth hasOperand tokens) :
    IsExpression depth' hasOperand tokens := by
  match isExpression with
  | .nil => exact .nil
  | .operand isExpression isOperand =>
    exact .operand (isExpression.mono fewer) (isOperand.mono fewer)
  | .joined conjunction isExpression isOperand =>
    exact .joined conjunction (isExpression.mono fewer) (isOperand.mono fewer)
  | .emptyGroup isExpression room isEmpty =>
    exact .emptyGroup (isExpression.mono fewer) (by omega)
      (isEmpty.mono (Nat.succ_le_succ fewer))

end

/-- An operand behind some negations. -/
theorem IsOperand.replicate_not {depth : Nat} {operand : List Token} {count : Nat}
    (room : depth + count ≤ maxDepth) (isOperand : IsOperand (depth + count) operand) :
    IsOperand depth (List.replicate count (.operator .not) ++ operand) := by
  induction count generalizing depth with
  | zero => exact isOperand
  | succ count ih =>
    rw [List.replicate_succ, List.cons_append]
    refine .not (by omega) (ih (by omega) ?_)
    rwa [show depth + 1 + count = depth + (count + 1) by omega]

end Grammar

namespace Parser

open Grammar

variable {default conjunction : Conjunction} {state : State} {depth : Nat} {fold inside : Fold}
  {node : Node} {before last inner : List Token}

/-! ### Reading without a trace -/

/-- The tokens are read as the operand where `depth` parentheses and negations stand around
it. -/
def ReadsOperand (default : Conjunction) (depth : Nat) (node : Node) (tokens : List Token) :
    Prop :=
  ∀ state : State, state.frame.operandDepth = depth → state.skipped = 0 →
    run default state tokens = state.took default node tokens.length

/-- The tokens are read as an expression with this fold. -/
def ReadsExpression (default : Conjunction) (depth : Nat) (fold : Fold) (tokens : List Token) :
    Prop :=
  ∀ state : State, state.frame = .fresh depth → state.skipped = 0 →
    run default state tokens =
      { state with
        frame := ⟨depth, fold, none, []⟩
        position := state.position + tokens.length }

/-- An operand behind another one. -/
theorem took_resting (default : Conjunction) (operand : Node) (count : Nat)
    (resting : state.frame = ⟨depth, fold, none, []⟩) :
    state.took default operand count =
      { state with
        frame := ⟨depth, fold.push operand, none, []⟩
        position := state.position + count } := by
  simp [State.took, State.resolve, State.record, resting, Frame.accept]

/-- An expression in parentheses is given to the frame around it. -/
theorem ReadsExpression.run_group (reads : ReadsExpression default (depth + 1) inside inner)
    (room : depth < maxDepth) (here : state.frame.operandDepth = depth)
    (noneSkipped : state.skipped = 0) :
    run default state (.openParen :: (inner ++ [.closeParen])) =
      { state.resolve default (inside.finish default) with
        position := state.position + (inner.length + 2) } := by
  have below : state.frame.operandDepth < maxDepth := by omega
  have opened := step_openParen default below
  have fresh : (step default state .openParen).frame = .fresh (depth + 1) := by rw [opened, here]
  have behind := reads _ fresh (by rw [opened]; exact noneSkipped)
  have nested : (run default (step default state .openParen) inner).outer =
      state.frame :: state.outer := by
    rw [behind, opened]
  have closed := step_closeParen default (congrArg State.frame behind) nested
    (by rw [behind, opened]; exact noneSkipped)
  rw [run_cons, run_append, run_cons, run_nil, closed, behind, opened]
  simp only [State.resolve, State.record]
  congr 1
  omega

theorem readsOperand_key {token : Token} {text : String} (carries : token.key? = some text) :
    ReadsOperand default depth (.keys text) [token] := by
  intro state _ _
  exact step_key default carries

theorem ReadsOperand.not (room : depth < maxDepth)
    (reads : ReadsOperand default (depth + 1) node last) :
    ReadsOperand default depth node.not (.operator .not :: last) := by
  intro state here noneSkipped
  have below : state.frame.operandDepth < maxDepth := by omega
  have negated := step_not default below
  rw [run_cons, negated, reads]
  · simp only [State.took, List.length_cons]
    congr 1
    omega
  · rw [Frame.operandDepth] at here
    simp only [Frame.operandDepth, List.length_cons]
    omega
  · exact noneSkipped

theorem ReadsOperand.replicate_not {count : Nat} (room : depth + count ≤ maxDepth)
    (reads : ReadsOperand default (depth + count) node last) :
    ReadsOperand default depth (Node.not^[count] node)
      (List.replicate count (.operator .not) ++ last) := by
  induction count generalizing depth with
  | zero => exact reads
  | succ count ih =>
    rw [List.replicate_succ, List.cons_append, Function.iterate_succ_apply']
    refine .not (by omega) (ih (by omega) ?_)
    rwa [show depth + 1 + count = depth + (count + 1) by omega]

/-- Parentheses around an expression with an operand make an operand. -/
theorem ReadsExpression.parens (reads : ReadsExpression default (depth + 1) inside inner)
    (room : depth < maxDepth) (finished : inside.finish default = some node) :
    ReadsOperand default depth node (.openParen :: (inner ++ [.closeParen])) := by
  intro state here noneSkipped
  rw [reads.run_group room here noneSkipped, finished, State.took]
  simp

theorem readsExpression_nil : ReadsExpression default depth .empty [] := by
  intro state fresh _
  rw [run_nil, ← Frame.fresh, ← fresh]
  rfl

theorem ReadsExpression.operand (reads : ReadsExpression default depth fold before)
    (readsOperand : ReadsOperand default depth node last) :
    ReadsExpression default depth (fold.push node) (before ++ last) := by
  intro state fresh noneSkipped
  have first := reads state fresh noneSkipped
  have here : (run default state before).frame.operandDepth = depth := by
    rw [first]
    simp [Frame.operandDepth]
  have taken := readsOperand _ here (by rw [first]; exact noneSkipped)
  rw [run_append, taken, took_resting default node _ (congrArg State.frame first), first,
    List.length_append]
  simp only [Nat.add_assoc]

theorem ReadsExpression.joined (reads : ReadsExpression default depth fold before)
    (notEmpty : fold.isEmpty = false) (conjunction : Conjunction)
    (readsOperand : ReadsOperand default depth node last) :
    ReadsExpression default depth (fold.combine default conjunction node)
      (before ++ .operator (.ofConjunction conjunction) :: last) := by
  intro state fresh noneSkipped
  have first := reads state fresh noneSkipped
  have joined := step_operator default conjunction (congrArg State.frame first)
  have here : (step default (run default state before)
      (.operator (.ofConjunction conjunction))).frame.operandDepth = depth := by
    rw [joined]
    simp [Frame.operandDepth]
  have taken := readsOperand _ here (by rw [joined, first]; exact noneSkipped)
  rw [run_append, run_cons, taken,
    took_behind_operator default node _ _ notEmpty (congrArg State.frame joined), joined, first]
  simp only [List.length_append, List.length_cons]
  congr 1
  omega

/-- Parentheses around an expression without an operand leave no trace. -/
theorem ReadsExpression.emptyGroup (reads : ReadsExpression default depth fold before)
    (room : depth < maxDepth) (readsInner : ReadsExpression default (depth + 1) inside inner)
    (empty : inside.isEmpty) :
    ReadsExpression default depth fold (before ++ .openParen :: (inner ++ [.closeParen])) := by
  intro state fresh noneSkipped
  have first := reads state fresh noneSkipped
  have here : (run default state before).frame.operandDepth = depth := by
    rw [first]
    simp [Frame.operandDepth]
  rw [run_append, readsInner.run_group room here (by rw [first]; exact noneSkipped),
    Fold.finish_of_isEmpty empty, first]
  simp only [State.resolve, State.record, Frame.resolve_none, Frame.abandon, List.length_append,
    List.length_cons, List.length_nil]
  simp [Nat.add_assoc]

/-! ### What the grammar derives -/

mutual

/-- An operand of the grammar is read as an operand. -/
theorem exists_readsOperand (default : Conjunction) {depth : Nat} {tokens : List Token}
    (isOperand : IsOperand depth tokens) : ∃ node, ReadsOperand default depth node tokens := by
  match isOperand with
  | .key carries => exact ⟨_, readsOperand_key carries⟩
  | .not room isOperand =>
    obtain ⟨node, reads⟩ := exists_readsOperand default isOperand
    exact ⟨node.not, reads.not room⟩
  | .parens room isExpression =>
    obtain ⟨fold, notEmpty, reads⟩ := exists_readsExpression default isExpression
    obtain ⟨node, finished⟩ := Fold.exists_finish default notEmpty
    exact ⟨node, reads.parens room finished⟩

/-- An expression of the grammar is read as an expression, which is empty exactly if it has no
operand. -/
theorem exists_readsExpression (default : Conjunction) {depth : Nat} {hasOperand : Bool}
    {tokens : List Token} (isExpression : IsExpression depth hasOperand tokens) :
    ∃ fold : Fold, fold.isEmpty = !hasOperand ∧ ReadsExpression default depth fold tokens := by
  match isExpression with
  | .nil => exact ⟨.empty, rfl, readsExpression_nil⟩
  | .operand isExpression isOperand =>
    obtain ⟨fold, _, reads⟩ := exists_readsExpression default isExpression
    obtain ⟨node, readsOperand⟩ := exists_readsOperand default isOperand
    exact ⟨_, Fold.isEmpty_push node fold, reads.operand readsOperand⟩
  | .joined conjunction isExpression isOperand =>
    obtain ⟨fold, notEmpty, reads⟩ := exists_readsExpression default isExpression
    obtain ⟨node, readsOperand⟩ := exists_readsOperand default isOperand
    exact ⟨_, Fold.isEmpty_combine node fold, reads.joined notEmpty conjunction readsOperand⟩
  | .emptyGroup isExpression room isEmpty =>
    obtain ⟨fold, isEmpty_eq, reads⟩ := exists_readsExpression default isExpression
    obtain ⟨inside, empty, readsInner⟩ := exists_readsExpression default isEmpty
    exact ⟨fold, isEmpty_eq, reads.emptyGroup room readsInner empty⟩

end

/-- A whole query that is read as an expression has the tree of its fold and no warnings. -/
theorem ReadsExpression.parse_eq {tokens : List Token}
    (reads : ReadsExpression default 0 fold tokens) :
    parse default tokens = ⟨fold.finish default, []⟩ := by
  rw [parse, reads .initial rfl rfl]
  simp [State.finish, State.closeAll, State.initial, Frame.abandon]

end Parser

end SearchKeys
