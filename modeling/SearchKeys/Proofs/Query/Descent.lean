/-
# Recursive descent

Keys can be read by two procedures that call each other. One reads an expression, in a loop over
its operands. The other reads an operand; it calls itself behind a `NOT`, and the first one behind
a left parenthesis. The depth is passed to each call. At the limit, an operand first skips the
`NOT`s and left parentheses in front of it, in a loop of its own.

The descent is made one move at a time here, and the calls that wait are kept in a list. So it can
be said what holds at every point of it, whether or not it ends.

## Main definitions

* `Parser.Descent`: the descent between two moves.
* `Parser.Descent.next`: the next move, if there is one.
* `Parser.Descent.Reaches`, `Parser.Descent.Reached`: what moves lead to.
* `Parser.Descent.Move`: the ways in which a move can go.

## Main results

* `Parser.Descent.reaches_of_next_eq_none`: all points of a descent lead to its last one.
* `Parser.Descent.moves_of_next`: a move goes in one of the listed ways.
-/

import SearchKeys.Query.Parser
import Mathlib.Logic.Relation

namespace SearchKeys

/-- Whether the token nests what follows it: a `NOT` or a left parenthesis. -/
def Token.nests : Token → Bool
  | openParen => true
  | operator .not => true
  | _ => false

theorem Token.nests_iff {token : Token} :
    token.nests ↔ token = .openParen ∨ token = .operator .not := by
  cases token with
  | operator op => cases op <;> simp [nests]
  | _ => simp [nests]

/-- Whether an operand can begin with the token. -/
def Token.beginsOperand (token : Token) : Bool :=
  token.nests || token.key?.isSome

namespace Parser

/-- A call that waits for the call it has made. -/
inductive Descent.Caller
  /-- An expression that waits for its next operand, with the operator in front of it. -/
  | expression (depth : Nat) (fold : Fold) (joiner : Option (Conjunction × Nat))
  /-- An operand that begins with a `NOT` at some position and waits for what it negates. -/
  | negation (depth position : Nat)
  /-- An operand that begins with a left parenthesis and waits for the expression behind it. -/
  | group (depth : Nat)
  deriving Repr

/-- How far the call that runs has come. -/
inductive Descent.Point
  /-- An expression is at the head of its loop. -/
  | expression (depth : Nat) (fold : Fold)
  /-- An expression returns. -/
  | expressionEnd (depth : Nat) (node : Option Node)
  /-- An operand has been called. -/
  | operand (depth : Nat)
  /-- An operand is at the head of the loop that skips tokens. -/
  | skipping (depth : Nat)
  /-- An operand looks at the token that it may begin with. -/
  | beginning (depth : Nat)
  /-- An operand returns. -/
  | operandEnd (depth : Nat) (node : Option Node)
  deriving Repr

/-- The descent between two moves. -/
structure Descent where
  /-- How far the call that runs has come. -/
  point : Descent.Point
  /-- The calls that wait, the latest first. -/
  callers : List Descent.Caller
  /-- The number of tokens taken. -/
  position : Nat
  /-- The number of skipped left parentheses whose right ones are still to be skipped. -/
  skipped : Nat
  /-- Whether a token was skipped because it would have nested too deep. -/
  limited : Bool
  /-- The warnings so far, latest first. -/
  warnings : List Warning
  deriving Repr

namespace Descent

/-! ### Moves -/

/-- The call of an expression that is to be all of the tokens. -/
def start : Descent :=
  ⟨.expression 0 .empty, [], 0, 0, false, []⟩

/-- Goes on with the call that runs. -/
def goTo (point : Point) (descent : Descent) : Descent :=
  { descent with point := point }

/-- Calls a procedure. -/
def call (caller : Caller) (point : Point) (descent : Descent) : Descent :=
  { descent with point := point, callers := caller :: descent.callers }

/-- Returns to a call that waits, with those around it. -/
def returnTo (point : Point) (callers : List Caller) (descent : Descent) : Descent :=
  { descent with point := point, callers := callers }

/-- Takes a token if any is left. -/
def advance (tokens : List Token) (descent : Descent) : Descent :=
  if descent.position < tokens.length then { descent with position := descent.position + 1 }
  else descent

/-- Records warnings in the order given. -/
def record (found : List Warning) (descent : Descent) : Descent :=
  { descent with warnings := found.reverse ++ descent.warnings }

/-- Records that the token at a position nests too deep, if it is the first one. -/
def refuse (position : Nat) (descent : Descent) : Descent :=
  if descent.limited then descent
  else { descent with limited := true }.record [.nestingTooDeep position]

/-- One iteration of the loop of an expression, as far as the call of an operand. -/
def loop (default : Conjunction) (tokens : List Token) (depth : Nat) (fold : Fold)
    (descent : Descent) : Descent :=
  match tokens[descent.position]? with
  | none => descent.goTo (.expressionEnd depth (fold.finish default))
  | some .closeParen =>
    if 0 < descent.skipped then { descent.advance tokens with skipped := descent.skipped - 1 }
    else if 0 < depth then descent.goTo (.expressionEnd depth (fold.finish default))
    else (descent.advance tokens).record [.unmatchedCloseParen descent.position]
  | some (.operator .and) =>
    (descent.advance tokens).call (.expression depth fold (some (.and, descent.position)))
      (.operand depth)
  | some (.operator .or) =>
    (descent.advance tokens).call (.expression depth fold (some (.or, descent.position)))
      (.operand depth)
  | some _ => descent.call (.expression depth fold none) (.operand depth)

/-- One iteration of the loop that skips what would nest too deep. -/
def skip (tokens : List Token) (depth : Nat) (descent : Descent) : Descent :=
  match tokens[descent.position]? with
  | some .openParen =>
    { (descent.advance tokens).refuse descent.position with skipped := descent.skipped + 1 }
  | some (.operator .not) => (descent.advance tokens).refuse descent.position
  | _ => descent.goTo (.beginning depth)

/-- The beginning of an operand, where there may be none. -/
def begin (tokens : List Token) (depth : Nat) (descent : Descent) : Descent :=
  match tokens[descent.position]? with
  | some (.operator .not) =>
    (descent.advance tokens).call (.negation depth descent.position) (.operand (depth + 1))
  | some .openParen =>
    (descent.advance tokens).call (.group depth) (.expression (depth + 1) .empty)
  | some (.term text) => (descent.advance tokens).goTo (.operandEnd depth (some (.keys text)))
  | some (.phrase text) => (descent.advance tokens).goTo (.operandEnd depth (some (.keys text)))
  | _ => descent.goTo (.operandEnd depth none)

/-- The return of an operand to the call that waits for it. -/
def returnOperand (default : Conjunction) (node : Option Node) (descent : Descent) :
    Option Descent :=
  match descent.callers with
  | .expression depth fold joiner :: callers =>
    let (frame, found) := Frame.resolve default node ⟨depth, fold, joiner, []⟩
    some ((descent.returnTo (.expression depth frame.fold) callers).record found)
  | .negation depth position :: callers =>
    match node with
    | some node => some (descent.returnTo (.operandEnd depth (some node.not)) callers)
    | none =>
      some ((descent.returnTo (.operandEnd depth none) callers).record
        [.danglingOperator .not position])
  | _ => none

/-- The return of an expression to the parenthesis in front of it, whose right one comes next or
is missing. -/
def returnExpression (tokens : List Token) (node : Option Node) (descent : Descent) :
    Option Descent :=
  match descent.callers with
  | .group depth :: callers =>
    match tokens[descent.position]? with
    | some .closeParen => some ((descent.advance tokens).returnTo (.operandEnd depth node) callers)
    | _ => some ((descent.returnTo (.operandEnd depth node) callers).record [.unclosedGroup])
  | _ => none

/-- The next move. There is none when the first call returns. -/
def next (default : Conjunction) (tokens : List Token) (descent : Descent) : Option Descent :=
  match descent.point with
  | .expression depth fold => some (descent.loop default tokens depth fold)
  | .expressionEnd _ node => descent.returnExpression tokens node
  | .operand depth =>
    some (descent.goTo (if maxDepth ≤ depth then .skipping depth else .beginning depth))
  | .skipping depth => some (descent.skip tokens depth)
  | .beginning depth => some (descent.begin tokens depth)
  | .operandEnd _ node => descent.returnOperand default node

/-- Moves that lead from one point of a descent to another. -/
def Reaches (default : Conjunction) (tokens : List Token) : Descent → Descent → Prop :=
  Relation.ReflTransGen fun descent after => next default tokens descent = some after

/-- A point of the descent through some tokens. -/
def Reached (default : Conjunction) (tokens : List Token) (descent : Descent) : Prop :=
  Reaches default tokens start descent

/-- There is only one way to go, so all points that a descent comes to lead to its last one. -/
theorem reaches_of_next_eq_none {default : Conjunction} {tokens : List Token}
    {descent later last : Descent} (reaches : Reaches default tokens descent later)
    (reachesLast : Reaches default tokens descent last) (stops : next default tokens last = none) :
    Reaches default tokens later last := by
  have unique : Relator.RightUnique fun descent after => next default tokens descent = some after :=
    fun _ _ _ moved moved' => Option.some.inj (moved.symm.trans moved')
  rcases Relation.ReflTransGen.total_of_right_unique unique reaches reachesLast with goesOn | back
  · exact goesOn
  · rcases back.cases_head with rfl | ⟨after, moved, -⟩
    · exact .refl
    · cases stops.symm.trans moved

/-- The ways in which a move can go, from a position with some right parentheses to skip. It leads
from a point and the calls that wait there to another point with its calls, where other numbers of
tokens are taken and of parentheses are to be skipped. -/
inductive Move (default : Conjunction) (tokens : List Token) (position skipped : Nat) :
    Point → List Caller → Point → List Caller → Nat → Nat → Prop
  | swallow {depth : Nat} {fold : Fold} {callers : List Caller}
      (sees : tokens[position]? = some .closeParen) (waiting : 0 < skipped) :
    Move default tokens position skipped (.expression depth fold) callers
      (.expression depth fold) callers (position + 1) (skipped - 1)
  | stray {fold : Fold} {callers : List Caller}
      (sees : tokens[position]? = some .closeParen) (noneSkipped : skipped = 0) :
    Move default tokens position skipped (.expression 0 fold) callers
      (.expression 0 fold) callers (position + 1) skipped
  | leave {depth : Nat} {fold : Fold} {callers : List Caller}
      (ends : tokens[position]? = none ∨
        0 < depth ∧ tokens[position]? = some .closeParen ∧ skipped = 0) :
    Move default tokens position skipped (.expression depth fold) callers
      (.expressionEnd depth (fold.finish default)) callers position skipped
  | join {depth : Nat} {fold : Fold} {callers : List Caller} (conjunction : Conjunction)
      (sees : tokens[position]? = some (.operator (.ofConjunction conjunction))) :
    Move default tokens position skipped (.expression depth fold) callers
      (.operand depth) (.expression depth fold (some (conjunction, position)) :: callers)
      (position + 1) skipped
  | read {depth : Nat} {fold : Fold} {callers : List Caller} {token : Token}
      (sees : tokens[position]? = some token) (begins : token.beginsOperand) :
    Move default tokens position skipped (.expression depth fold) callers
      (.operand depth) (.expression depth fold none :: callers) position skipped
  | atLimit {depth : Nat} {callers : List Caller} (limit : maxDepth ≤ depth) :
    Move default tokens position skipped (.operand depth) callers
      (.skipping depth) callers position skipped
  | inRoom {depth : Nat} {callers : List Caller} (room : depth < maxDepth) :
    Move default tokens position skipped (.operand depth) callers
      (.beginning depth) callers position skipped
  | skipNot {depth : Nat} {callers : List Caller}
      (sees : tokens[position]? = some (.operator .not)) :
    Move default tokens position skipped (.skipping depth) callers
      (.skipping depth) callers (position + 1) skipped
  | skipOpen {depth : Nat} {callers : List Caller} (sees : tokens[position]? = some .openParen) :
    Move default tokens position skipped (.skipping depth) callers
      (.skipping depth) callers (position + 1) (skipped + 1)
  | skipped {depth : Nat} {callers : List Caller}
      (others : ∀ token, tokens[position]? = some token → ¬token.nests) :
    Move default tokens position skipped (.skipping depth) callers
      (.beginning depth) callers position skipped
  | negate {depth : Nat} {callers : List Caller}
      (sees : tokens[position]? = some (.operator .not)) :
    Move default tokens position skipped (.beginning depth) callers
      (.operand (depth + 1)) (.negation depth position :: callers) (position + 1) skipped
  | openGroup {depth : Nat} {callers : List Caller}
      (sees : tokens[position]? = some .openParen) :
    Move default tokens position skipped (.beginning depth) callers
      (.expression (depth + 1) .empty) (.group depth :: callers) (position + 1) skipped
  | key {depth : Nat} {callers : List Caller} {token : Token} {text : String}
      (sees : tokens[position]? = some token) (carries : token.key? = some text) :
    Move default tokens position skipped (.beginning depth) callers
      (.operandEnd depth (some (.keys text))) callers (position + 1) skipped
  | lack {depth : Nat} {callers : List Caller}
      (others : ∀ token, tokens[position]? = some token → ¬token.beginsOperand) :
    Move default tokens position skipped (.beginning depth) callers
      (.operandEnd depth none) callers position skipped
  | attach {inner depth : Nat} {node : Option Node} {fold : Fold}
      {joiner : Option (Conjunction × Nat)} {callers : List Caller} :
    Move default tokens position skipped
      (.operandEnd inner node) (.expression depth fold joiner :: callers)
      (.expression depth (Frame.resolve default node ⟨depth, fold, joiner, []⟩).1.fold) callers
      position skipped
  | negated {inner depth place : Nat} {node : Option Node} {callers : List Caller} :
    Move default tokens position skipped
      (.operandEnd inner node) (.negation depth place :: callers)
      (.operandEnd depth (node.map Node.not)) callers position skipped
  | closeGroup {inner depth : Nat} {node : Option Node} {callers : List Caller}
      (sees : tokens[position]? = some .closeParen) :
    Move default tokens position skipped (.expressionEnd inner node) (.group depth :: callers)
      (.operandEnd depth node) callers (position + 1) skipped
  | unclosed {inner depth : Nat} {node : Option Node} {callers : List Caller}
      (lacks : tokens[position]? ≠ some .closeParen) :
    Move default tokens position skipped (.expressionEnd inner node) (.group depth :: callers)
      (.operandEnd depth node) callers position skipped

variable {default : Conjunction} {tokens : List Token} {descent after later : Descent}
  {token : Token} {depth position : Nat}

@[simp] theorem refuse_point : (descent.refuse position).point = descent.point := by
  unfold refuse; split <;> rfl

@[simp] theorem refuse_callers : (descent.refuse position).callers = descent.callers := by
  unfold refuse; split <;> rfl

@[simp] theorem refuse_position : (descent.refuse position).position = descent.position := by
  unfold refuse; split <;> rfl

@[simp] theorem refuse_skipped : (descent.refuse position).skipped = descent.skipped := by
  unfold refuse; split <;> rfl

/-- The parts of two points of a descent that moves are about. -/
def Moves (default : Conjunction) (tokens : List Token) (descent after : Descent) : Prop :=
  Move default tokens descent.position descent.skipped descent.point descent.callers
    after.point after.callers after.position after.skipped

theorem advance_eq (descent : Descent) (sees : tokens[descent.position]? = some token) :
    descent.advance tokens = { descent with position := descent.position + 1 } := by
  obtain ⟨inside, -⟩ := List.getElem?_eq_some_iff.1 sees
  simp [advance, inside]

/-- In front of a token that an operand begins with, an operand is called. -/
theorem loop_of_begins (default : Conjunction) (fold : Fold)
    (sees : tokens[descent.position]? = some token) (begins : token.beginsOperand) :
    descent.loop default tokens depth fold =
      descent.call (.expression depth fold none) (.operand depth) := by
  unfold loop
  rw [sees]
  match token with
  | .openParen => rfl
  | .operator .not => rfl
  | .term text => rfl
  | .phrase text => rfl

theorem moves_loop {fold : Fold} (here : descent.point = .expression depth fold) :
    Moves default tokens descent (descent.loop default tokens depth fold) := by
  rw [Moves, here]
  cases sees : tokens[descent.position]? with
  | none => simpa [loop, sees, goTo] using Move.leave (.inl sees)
  | some token =>
    have advanced := advance_eq descent sees
    by_cases begins : token.beginsOperand
    · simpa [loop_of_begins default fold sees begins, call] using Move.read sees begins
    · match token with
      | .operator .and => simpa [loop, sees, advanced, call] using Move.join .and sees
      | .operator .or => simpa [loop, sees, advanced, call] using Move.join .or sees
      | .closeParen =>
        by_cases waiting : 0 < descent.skipped
        · simpa [loop, sees, waiting, advanced, here] using Move.swallow sees waiting
        · have noneSkipped : descent.skipped = 0 := by omega
          cases depth with
          | zero =>
            simpa [loop, sees, noneSkipped, advanced, record, here] using
              Move.stray sees noneSkipped
          | succ depth =>
            simpa [loop, sees, noneSkipped, goTo] using
              Move.leave (.inr ⟨Nat.succ_pos depth, sees, noneSkipped⟩)

/-- In front of a token that nests nothing, the loop that skips tokens is left. -/
theorem skip_of_others
    (others : ∀ token, tokens[descent.position]? = some token → ¬token.nests) :
    descent.skip tokens depth = descent.goTo (.beginning depth) := by
  unfold skip
  split
  · next sees => exact absurd rfl (others _ sees)
  · next sees => exact absurd rfl (others _ sees)
  · rfl

theorem moves_skip (here : descent.point = .skipping depth) :
    Moves default tokens descent (descent.skip tokens depth) := by
  rw [Moves, here]
  by_cases others : ∀ token, tokens[descent.position]? = some token → ¬token.nests
  · simpa [skip_of_others others, goTo] using Move.skipped others
  · obtain ⟨token, sees, nests⟩ : ∃ token, tokens[descent.position]? = some token ∧ token.nests := by
      simpa using others
    have advanced := advance_eq descent sees
    rcases Token.nests_iff.1 nests with rfl | rfl
    · simpa [skip, sees, advanced, here] using Move.skipOpen sees
    · simpa [skip, sees, advanced, here] using Move.skipNot sees

/-- In front of a token that no operand begins with, there is none. -/
theorem begin_of_others
    (others : ∀ token, tokens[descent.position]? = some token → ¬token.beginsOperand) :
    descent.begin tokens depth = descent.goTo (.operandEnd depth none) := by
  unfold begin
  split
  · next sees => exact absurd rfl (others _ sees)
  · next sees => exact absurd rfl (others _ sees)
  · next sees => exact absurd rfl (others _ sees)
  · next sees => exact absurd rfl (others _ sees)
  · rfl

theorem moves_begin (here : descent.point = .beginning depth) :
    Moves default tokens descent (descent.begin tokens depth) := by
  rw [Moves, here]
  by_cases others : ∀ token, tokens[descent.position]? = some token → ¬token.beginsOperand
  · simpa [begin_of_others others, goTo] using Move.lack others
  · obtain ⟨token, sees, begins⟩ :
        ∃ token, tokens[descent.position]? = some token ∧ token.beginsOperand := by
      simpa using others
    have advanced := advance_eq descent sees
    match token with
    | .openParen => simpa [begin, sees, advanced, call] using Move.openGroup sees
    | .operator .not => simpa [begin, sees, advanced, call] using Move.negate sees
    | .term text => simpa [begin, sees, advanced, goTo] using Move.key sees rfl
    | .phrase text => simpa [begin, sees, advanced, goTo] using Move.key sees rfl

theorem moves_of_returnOperand {node : Option Node} (here : descent.point = .operandEnd depth node)
    (moved : descent.returnOperand default node = some after) :
    Moves default tokens descent after := by
  unfold returnOperand at moved
  split at moved
  · next waits =>
    obtain rfl := Option.some.inj moved
    rw [Moves, here, waits]
    exact .attach
  · next waits =>
    rw [Moves, here, waits]
    cases node <;> obtain rfl := Option.some.inj moved
    · exact .negated
    · exact .negated
  · cases moved

theorem moves_of_returnExpression {node : Option Node}
    (here : descent.point = .expressionEnd depth node)
    (moved : descent.returnExpression tokens node = some after) :
    Moves default tokens descent after := by
  unfold returnExpression at moved
  split at moved
  · next waits =>
    rw [Moves, here, waits]
    split at moved <;> obtain rfl := Option.some.inj moved
    · next sees =>
      rw [advance_eq _ sees]
      exact .closeGroup sees
    · next lacks => exact .unclosed lacks
  · cases moved

/-- A move goes in one of the listed ways. -/
theorem moves_of_next (moved : next default tokens descent = some after) :
    Moves default tokens descent after := by
  unfold next at moved
  split at moved
  · next here =>
    obtain rfl := Option.some.inj moved
    exact moves_loop here
  · next here => exact moves_of_returnExpression here moved
  · next depth here =>
    obtain rfl := Option.some.inj moved
    rw [Moves, here]
    by_cases limit : maxDepth ≤ depth
    · rw [if_pos limit]
      exact .atLimit limit
    · rw [if_neg limit]
      exact .inRoom (by omega)
  · next here =>
    obtain rfl := Option.some.inj moved
    exact moves_skip here
  · next here =>
    obtain rfl := Option.some.inj moved
    exact moves_begin here
  · next here => exact moves_of_returnOperand here moved

end Descent

end Parser

end SearchKeys
