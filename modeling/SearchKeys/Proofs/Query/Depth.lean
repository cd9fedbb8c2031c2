/-
# How deep a query can nest

The parser limits the parentheses and the negations of the expression that it reads, and so it
limits their nesting. It does not limit the groups that a change of the operator makes, and
the height of the tree is that of the expression with these groups in it: keys of any length
can nest to any depth.

To say which expression is read from tokens, each token is followed by what it adds to the
expressions that are open. Tokens that the parser skips add nothing.

## Main definitions

* `Parser.expression`: the expression that the parser reads.

## Main results

* `Parser.parse_expression`: the returned tree is the tree of this expression.
* `Parser.nesting_expression_le`: its parentheses and negations nest within the limit.
* `Parser.height_parse_le_iff`: how deep the returned tree nests.
-/

import SearchKeys.Proofs.Query.Expression
import SearchKeys.Proofs.Query.Reading

namespace SearchKeys.Parser

variable {default : Conjunction} {state : State} {frame around : Frame} {outer : List Frame}
  {left : Option Expression} {lefts : List (Option Expression)}

/-! ### The expression that is read -/

/-- The expressions that are open, each as far as it has been read. -/
structure Written where
  /-- The innermost expression. -/
  inner : Option Expression
  /-- The expressions around it, innermost first. -/
  outer : List (Option Expression)

/-- The expression of a frame with one more operand, which takes the waiting negations and
operator. -/
def Frame.extend (frame : Frame) (left : Option Expression) (operand : Operand) : Expression :=
  match left with
  | none => .single (Operand.not^[frame.negations.length] operand)
  | some left => .follow left frame.link (Operand.not^[frame.negations.length] operand)

/-- The expression of a frame behind a closed pair of parentheses. Empty parentheses leave it as
it is. -/
def Frame.extendGroup (frame : Frame) (left inner : Option Expression) : Option Expression :=
  match inner with
  | none => left
  | some inner => some (frame.extend left (.parens inner))

/-- What a token adds to the open expressions. -/
def State.write (state : State) (token : Token) (written : Written) : Written :=
  match token with
  | .term text => { written with inner := state.frame.extend written.inner (.key text) }
  | .phrase text => { written with inner := state.frame.extend written.inner (.key text) }
  | .operator _ => written
  | .openParen => if state.atLimit then written else ⟨none, written.inner :: written.outer⟩
  | .closeParen =>
    if 0 < state.skipped then written
    else
      match state.outer, written.outer with
      | around :: _, left :: outer => ⟨around.extendGroup left written.inner, outer⟩
      | _, _ => written

/-- The open expressions after some more tokens. -/
def writeAll (default : Conjunction) (state : State) (written : Written) : List Token → Written
  | [] => written
  | token :: tokens =>
    writeAll default (step default state token) (state.write token written) tokens

/-- The outermost expression when all others are closed, innermost first. -/
def closeWritten (left : Option Expression) :
    List Frame → List (Option Expression) → Option Expression
  | around :: outer, left' :: lefts => closeWritten (around.extendGroup left' left) outer lefts
  | _, _ => left

/-- The expression that the parser reads from tokens, if they hold any key. -/
def expression (default : Conjunction) (tokens : List Token) : Option Expression :=
  let written := writeAll default .initial ⟨none, []⟩ tokens
  closeWritten written.inner (run default .initial tokens).outer written.outer

/-! ### Frames and their expressions -/

/-- A frame has read this expression, within the limit. -/
structure Frame.HasRead (default : Conjunction) (frame : Frame) (left : Option Expression) :
    Prop where
  /-- The operands of the expression are folded. -/
  fold_eq : frame.fold = left.elim .empty (Expression.fold default)
  /-- Its parentheses and negations nest within the limit. -/
  nesting_le : frame.depth + left.elim 0 Expression.nesting ≤ maxDepth
  /-- So do the negations that wait. -/
  operandDepth_le : frame.operandDepth ≤ maxDepth

theorem node_iterate_not (count : Nat) (operand : Operand) :
    (Operand.not^[count] operand).node default = Node.not^[count] (operand.node default) := by
  induction count generalizing operand with
  | zero => rfl
  | succ count ih =>
    rw [Function.iterate_succ_apply, ih, Function.iterate_succ_apply, Operand.node]

theorem nesting_iterate_not (count : Nat) (operand : Operand) :
    (Operand.not^[count] operand).nesting = operand.nesting + count := by
  induction count generalizing operand with
  | zero => rfl
  | succ count ih =>
    rw [Function.iterate_succ_apply, ih, Operand.nesting]
    omega

/-- An operand that nests within the limit where it stands is added to the expression. -/
theorem Frame.HasRead.accept (hasRead : frame.HasRead default left) (operand : Operand)
    (room : frame.operandDepth + operand.nesting ≤ maxDepth) :
    (frame.accept default (operand.node default)).1.HasRead default
      (some (frame.extend left operand)) := by
  have nested := nesting_iterate_not frame.negations.length operand
  have whole : frame.depth + (operand.nesting + frame.negations.length) ≤ maxDepth := by
    rw [Frame.operandDepth] at room
    omega
  have shallow : frame.depth ≤ maxDepth := by omega
  rw [Frame.accept_fst, Frame.negated, ← node_iterate_not]
  cases left with
  | none =>
    refine ⟨?_, by simpa [Frame.extend, Expression.nesting, nested] using whole, shallow⟩
    rw [hasRead.fold_eq]
    cases frame.link <;> rfl
  | some left =>
    have before : frame.depth + left.nesting ≤ maxDepth := hasRead.nesting_le
    refine ⟨?_, ?_, shallow⟩
    · rw [hasRead.fold_eq]
      rfl
    · simp only [Frame.extend, Option.elim_some, Expression.nesting, nested]
      omega

theorem Frame.HasRead.abandon (hasRead : frame.HasRead default left)
    (joiner : Option (Conjunction × Nat)) :
    (⟨frame.depth, frame.fold, joiner, []⟩ : Frame).HasRead default left :=
  ⟨hasRead.fold_eq, hasRead.nesting_le, (Nat.le_add_right ..).trans hasRead.operandDepth_le⟩

theorem hasRead_fresh {depth : Nat} (shallow : depth ≤ maxDepth) :
    (Frame.fresh depth).HasRead default none :=
  ⟨rfl, shallow, shallow⟩

/-- A frame takes the expression of a frame inside it as an operand in parentheses. -/
theorem Frame.HasRead.resolve {inner : Option Expression} (hasRead : around.HasRead default left)
    (inside : frame.HasRead default inner) (depth_eq : frame.depth = around.operandDepth + 1) :
    (around.resolve default (frame.fold.finish default)).1.HasRead default
      (around.extendGroup left inner) := by
  rw [inside.fold_eq]
  cases inner with
  | none => exact hasRead.abandon none
  | some inner =>
    have room := inside.nesting_le
    rw [depth_eq, Option.elim_some] at room
    have operand : inner.node default = (Operand.parens inner).node default := by
      rw [Operand.node, Expression.node]
    rw [Option.elim_some, Expression.finish_fold, Frame.resolve_some, operand]
    refine hasRead.accept _ ?_
    rw [Operand.nesting]
    omega

/-! ### States and their expressions -/

/-- All open frames have read these expressions, and each of them stands one level below its
place in the frame around it. -/
inductive HasRead (default : Conjunction) :
    Frame → List Frame → Option Expression → List (Option Expression) → Prop
  | outermost {frame : Frame} {left : Option Expression} (here : frame.HasRead default left) :
    HasRead default frame [] left []
  | inside {frame around : Frame} {outer : List Frame} {left left' : Option Expression}
      {lefts : List (Option Expression)} (here : frame.HasRead default left)
      (depth_eq : frame.depth = around.operandDepth + 1)
      (rest : HasRead default around outer left' lefts) :
    HasRead default frame (around :: outer) left (left' :: lefts)

theorem HasRead.here (hasRead : HasRead default frame outer left lefts) :
    frame.HasRead default left := by
  cases hasRead with
  | outermost here => exact here
  | inside here _ _ => exact here

/-- The innermost frame may change as long as it stays at its depth. -/
theorem HasRead.replace (hasRead : HasRead default frame outer left lefts) {frame' : Frame}
    {left' : Option Expression} (same : frame'.depth = frame.depth)
    (here : frame'.HasRead default left') : HasRead default frame' outer left' lefts := by
  cases hasRead with
  | outermost _ => exact .outermost here
  | inside _ depth_eq rest => exact .inside here (same.trans depth_eq) rest

theorem Frame.resolve_depth (operand : Option Node) :
    (frame.resolve default operand).1.depth = frame.depth := by
  rw [resolve_fst]

theorem write_key {token : Token} {text : String} (carries : token.key? = some text)
    (written : Written) : state.write token written =
      { written with inner := state.frame.extend written.inner (.key text) } := by
  cases token <;> cases carries <;> rfl

/-- A token adds to the open expressions what the parser takes from it. -/
theorem Effect.hasRead {token : Token} {skipped : Nat} {written : Written}
    (effect : Effect default state token frame outer skipped)
    (hasRead : HasRead default state.frame state.outer written.inner written.outer) :
    HasRead default frame outer (state.write token written).inner
      (state.write token written).outer := by
  have here := hasRead.here
  cases effect with
  | @key _ text carries =>
    rw [write_key carries]
    have accepted := here.accept (.key text) here.operandDepth_le
    exact hasRead.replace (by rw [Frame.accept_fst]) accepted
  | skipNot limit => exact hasRead
  | negate room =>
    -- below the limit there is room for one more negation
    refine hasRead.replace rfl ⟨here.fold_eq, here.nesting_le, ?_⟩
    have below : state.frame.operandDepth < maxDepth := by
      simpa [State.atLimit] using room
    simp only [Frame.operandDepth, List.length_cons] at below ⊢
    omega
  | join conjunction => exact hasRead.replace rfl (here.abandon _)
  | skipOpen limit =>
    rw [State.write, if_pos limit]
    exact hasRead
  | openGroup room =>
    -- and for one more pair of parentheses
    have below : state.frame.operandDepth < maxDepth := by
      simpa [State.atLimit] using room
    rw [State.write, if_neg room]
    exact .inside (hasRead_fresh below) rfl hasRead
  | swallow waiting =>
    rw [State.write, if_pos waiting]
    exact hasRead.replace rfl (here.abandon none)
  | stray noneSkipped outermost =>
    rw [State.write, if_neg (by omega), outermost]
    rw [outermost] at hasRead
    exact hasRead.replace rfl (here.abandon none)
  | @closeGroup around outer noneSkipped inside =>
    obtain ⟨inner, lefts⟩ := written
    rw [inside] at hasRead
    cases hasRead with
    | inside _ depth_eq rest =>
      -- the frame around takes the expression as an operand that nests one level deeper
      rw [State.write, if_neg (by omega), inside]
      exact rest.replace (Frame.resolve_depth _) (rest.here.resolve here depth_eq)

theorem hasRead_run (tokens : List Token) (written : Written)
    (hasRead : HasRead default state.frame state.outer written.inner written.outer) :
    HasRead default (run default state tokens).frame (run default state tokens).outer
      (writeAll default state written tokens).inner
      (writeAll default state written tokens).outer := by
  induction tokens generalizing state written with
  | nil => exact hasRead
  | cons token tokens ih => exact ih _ ((step_effect default state token).hasRead hasRead)

theorem hasRead_close (hasRead : HasRead default frame outer left lefts) :
    ∃ frame' : Frame, frame'.HasRead default (closeWritten left outer lefts) ∧
      nodeOf default frame outer = frame'.fold.finish default := by
  induction outer generalizing frame left lefts with
  | nil =>
    cases hasRead with
    | outermost here => exact ⟨frame, here, rfl⟩
  | cons around outer ih =>
    cases hasRead with
    | inside here depth_eq rest =>
      exact ih (rest.replace (Frame.resolve_depth _) (rest.here.resolve here depth_eq))

/-! ### Whole queries -/

theorem hasRead_initial : HasRead default State.initial.frame State.initial.outer none [] :=
  .outermost (hasRead_fresh (Nat.zero_le _))

theorem hasRead_expression (default : Conjunction) (tokens : List Token) : ∃ frame : Frame,
    frame.HasRead default (expression default tokens) ∧
      (parse default tokens).node = frame.fold.finish default := by
  rw [parse_node]
  exact hasRead_close (hasRead_run tokens ⟨none, []⟩ hasRead_initial)

/-- The returned tree is the tree of the expression that was read. -/
theorem parse_expression (tokens : List Token) :
    (parse default tokens).node = (expression default tokens).map (Expression.node default) := by
  obtain ⟨frame, hasRead, closed⟩ := hasRead_expression default tokens
  rw [closed, hasRead.fold_eq]
  cases expression default tokens with
  | none => rfl
  | some whole => exact whole.finish_fold

/-- The parentheses and the negations of the expression that was read nest within the limit. -/
theorem nesting_expression_le (default : Conjunction) (tokens : List Token) :
    (expression default tokens).elim 0 Expression.nesting ≤ maxDepth := by
  obtain ⟨frame, hasRead, _⟩ := hasRead_expression default tokens
  exact (Nat.le_add_left ..).trans hasRead.nesting_le

/-- The height of the returned tree is the number of levels of the expression that was read. -/
theorem height_parse (tokens : List Token) :
    (parse default tokens).node.elim 0 Node.height =
      (expression default tokens).elim 0 Expression.levels := by
  rw [parse_expression]
  cases expression default tokens with
  | none => rfl
  | some whole => exact whole.height_node

/-- Below its outermost group a returned tree nests within the limit exactly if the expression
that was read has no more levels than that. Its parentheses and negations alone stay within the
limit, and every level beyond them comes from a change of the operator. -/
theorem height_parse_le_iff (default : Conjunction) (tokens : List Token) :
    ((parse default tokens).node.elim 0 Node.height ≤ maxDepth + 1 ↔
      (expression default tokens).elim 0 Expression.levels ≤ maxDepth + 1) ∧
    (expression default tokens).elim 0 Expression.levels ≤
      maxDepth + 1 + (expression default tokens).elim 0 Expression.changes := by
  constructor
  · rw [height_parse]
  · have within := nesting_expression_le default tokens
    cases whole : expression default tokens with
    | none => simp
    | some whole' =>
      have levels := whole'.levels_le
      rw [whole, Option.elim_some] at within
      simp only [Option.elim_some]
      omega

/-! ### Operators in turn -/

/-- Keys with `AND` and `OR` between them in turn, and no parentheses. -/
def alternating (count : Nat) : List Token :=
  .term "a" ::
    (List.replicate count [.operator .and, .term "b", .operator .or, .term "c"]).flatten

/-- Behind an operator, a key is attached to what has been folded before. -/
theorem frame_run_joined (default conjunction : Conjunction) (text : String) {fold : Fold}
    {depth : Nat} (notEmpty : fold.isEmpty = false)
    (resting : state.frame = ⟨depth, fold, none, []⟩) :
    (run default state [.operator (.ofConjunction conjunction), .term text]).frame =
        ⟨depth, fold.attach default (some conjunction) (.keys text), none, []⟩ ∧
      (run default state [.operator (.ofConjunction conjunction), .term text]).outer =
        state.outer := by
  have joined := step_operator default conjunction resting
  have taken := took_behind_operator default (.keys text) 1 state.position notEmpty
    (congrArg State.frame joined)
  have isKey : (Token.term text).key? = some text := rfl
  rw [run_cons, run_cons, run_nil, step_key default isKey, taken, joined]
  exact ⟨rfl, rfl⟩

theorem height_run_alternating {fold : Fold} (count : Nat) (notEmpty : fold.isEmpty = false)
    (resting : state.frame = ⟨0, fold, none, []⟩) (outermost : state.outer = [])
    (other : fold.lastLink? ≠ some (some .and)) :
    (nodeOf default
      (run default state
        (List.replicate count [.operator .and, .term "b", .operator .or, .term "c"]).flatten).frame
      (run default state
        (List.replicate count [.operator .and, .term "b", .operator .or, .term "c"]).flatten).outer
      ).elim 0 Node.height = fold.height default + 2 * count := by
  induction count generalizing state fold with
  | zero =>
    rw [List.replicate_zero, List.flatten_nil, run_nil, resting, outermost]
    rfl
  | succ count ih =>
    have notEmpty' : (fold.attach default (some .and) (.keys "b")).isEmpty = false :=
      Fold.isEmpty_attach
    have first := frame_run_joined default .and "b" notEmpty resting
    have second := frame_run_joined default .or "c" notEmpty' first.1
    have firstHeight := Fold.height_attach default (some .and) (.keys "b") notEmpty
    have secondHeight := Fold.height_attach default (some .or) (.keys "c") notEmpty'
    -- both operators differ from the one before, so each of them adds a level
    rw [if_neg other, Node.height_keys] at firstHeight
    rw [firstHeight.1, if_neg (by decide), firstHeight.2, Node.height_keys] at secondHeight
    have behind := ih Fold.isEmpty_attach second.1 (second.2.trans (first.2.trans outermost))
      (by rw [secondHeight.1]; decide)
    rw [secondHeight.2] at behind
    rw [List.replicate_succ, List.flatten_cons, run_append]
    refine behind.trans ?_
    simp only [Nat.max_zero]
    omega

/-- Each further operator makes the tree one level higher. -/
theorem height_alternating (default : Conjunction) (count : Nat) :
    (parse default (alternating count)).node.elim 0 Node.height = 2 * count := by
  have first : (step default .initial (.term "a")).frame = ⟨0, .run [.keys "a"], none, []⟩ := rfl
  rw [parse_node, alternating, run_cons, height_run_alternating count rfl first rfl (by decide)]
  simp [Fold.height_run]

/-- So a tree can nest deeper than any bound, even without a parenthesis or a negation. -/
theorem lt_height_parse : maxDepth + 1 < (parse .and (alternating 65)).node.elim 0 Node.height ∧
    ∀ bound, ∃ tokens, bound < (parse .and tokens).node.elim 0 Node.height := by
  refine ⟨by rw [height_alternating]; decide, fun bound => ⟨alternating (bound + 1), ?_⟩⟩
  rw [height_alternating]
  omega

end SearchKeys.Parser
