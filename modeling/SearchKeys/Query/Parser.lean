/-
# Parsing tokens into a query tree

The parser takes one token at a time and never fails. It keeps a frame for every group that
is open; a frame holds the expression folded so far and what waits for the next operand: an
operator, and the negations in front of the operand. An operator or a negation that gets no
operand is dropped, a right parenthesis without a partner is skipped, and groups still open
at the end are closed there. Each of these is recorded as a warning.

Groups and negations nest at most `maxDepth` deep. A left parenthesis or `NOT` that would
nest deeper is skipped, and for every skipped parenthesis the next right one as well, so that
the terms inside join the innermost group that was kept.

## Main definitions

* `Parser.Frame`, `Parser.State`: the parser between two tokens.
* `Parser.step`: what one token does.
* `Parser.State.finish`: what the end of the tokens does.
* `Parser.parse`: the tree of a list of tokens, with the warnings.

## Main results

* `Parser.run_append`: tokens are taken one after the other.
-/

import SearchKeys.Warning
import SearchKeys.Query.Fold

namespace SearchKeys.Parser

/-- An expression that is being read, with what waits for its next operand. -/
structure Frame where
  /-- The number of groups and negations around the expression. -/
  depth : Nat
  /-- The operands read so far. -/
  fold : Fold
  /-- The operator in front of the next operand, with its position. -/
  joiner : Option (Conjunction × Nat)
  /-- The positions of the negations in front of the next operand, innermost first. -/
  negations : List Nat
  deriving Repr

/-- The parser between two tokens. -/
structure State where
  /-- The innermost expression. -/
  frame : Frame
  /-- The expressions around it, innermost first. -/
  outer : List Frame
  /-- The number of tokens taken. -/
  position : Nat
  /-- The number of skipped left parentheses whose right ones are still to be skipped. -/
  skipped : Nat
  /-- Whether a token was skipped because it would have nested too deep. -/
  limited : Bool
  /-- The warnings so far, latest first. -/
  warnings : List Warning
  deriving Repr

/-- The result of parsing a list of tokens. -/
structure Parsed where
  /-- The tree, if any token carries a search key. -/
  node : Option Node
  /-- What was tolerated, in the order of its discovery. -/
  warnings : List Warning
  deriving DecidableEq, Repr

namespace Frame

/-- An expression with nothing read yet. -/
def fresh (depth : Nat) : Frame :=
  ⟨depth, .empty, none, []⟩

/-- The depth at which the next operand would stand. -/
def operandDepth (frame : Frame) : Nat :=
  frame.depth + frame.negations.length

/-- The frame after its next operand, which takes the waiting negations and operator. An
operator in front of the first operand is dropped. -/
def accept (default : Conjunction) (operand : Node) (frame : Frame) : Frame × List Warning :=
  let node := frame.negations.foldl (fun node _ => node.not) operand
  match frame.joiner with
  | none => (⟨frame.depth, frame.fold.push node, none, []⟩, [])
  | some (conjunction, position) =>
    -- with nothing on its left the operator combines nothing
    if frame.fold.isEmpty then
      (⟨frame.depth, frame.fold.push node, none, []⟩,
        [.danglingOperator (.ofConjunction conjunction) position])
    else (⟨frame.depth, frame.fold.combine default conjunction node, none, []⟩, [])

/-- The frame after it turned out that no operand follows: the waiting negations and operator
are dropped, innermost first. -/
def abandon (frame : Frame) : Frame × List Warning :=
  (⟨frame.depth, frame.fold, none, []⟩,
    frame.negations.map (.danglingOperator .not) ++
      match frame.joiner with
      | none => []
      | some (conjunction, position) =>
        [.danglingOperator (.ofConjunction conjunction) position])

/-- The frame after an operand, or after the lack of one. -/
def resolve (default : Conjunction) (operand : Option Node) (frame : Frame) :
    Frame × List Warning :=
  match operand with
  | some node => frame.accept default node
  | none => frame.abandon

end Frame

namespace State

/-- The parser before the first token. -/
def initial : State :=
  ⟨.fresh 0, [], 0, 0, false, []⟩

/-- Records warnings in the order given. -/
def record (found : List Warning) (state : State) : State :=
  { state with warnings := found.reverse ++ state.warnings }

/-- Gives the innermost expression its next operand, or tells it that none follows. -/
def resolve (default : Conjunction) (operand : Option Node) (state : State) : State :=
  let (frame, found) := state.frame.resolve default operand
  { state with frame := frame }.record found

/-- Whether a group or a negation in front of the next operand would nest too deep. -/
def atLimit (state : State) : Bool :=
  maxDepth ≤ state.frame.operandDepth

/-- Skips a token that would nest too deep; only the first one is recorded. -/
def skip (state : State) : State :=
  if state.limited then state
  else { state with limited := true }.record [.nestingTooDeep state.position]

/-- Takes a left parenthesis. -/
def openGroup (state : State) : State :=
  if state.atLimit then
    { state.skip with skipped := state.skipped + 1 }
  else
    { state with
      frame := .fresh (state.frame.operandDepth + 1)
      outer := state.frame :: state.outer }

/-- Takes a `NOT`. -/
def negate (state : State) : State :=
  if state.atLimit then state.skip
  else
    { state with
      frame := { state.frame with negations := state.position :: state.frame.negations } }

/-- Takes a right parenthesis where no operand is waited for. It belongs to a skipped left
one if there is any, otherwise to the innermost group. -/
def closeGroup (default : Conjunction) (state : State) : State :=
  if 0 < state.skipped then { state with skipped := state.skipped - 1 }
  else
    match state.outer with
    | [] => state.record [.unmatchedCloseParen state.position]
    | frame :: outer =>
      { state with frame := frame, outer := outer }.resolve default
        (state.frame.fold.finish default)

/-- Takes an operator where no operand is waited for. -/
def join (conjunction : Conjunction) (state : State) : State :=
  { state with frame := { state.frame with joiner := some (conjunction, state.position) } }

/-- Takes a token, whose position is the number of tokens before it. -/
def take (default : Conjunction) (token : Token) (state : State) : State :=
  match token with
  | .term text => state.resolve default (some (.keys text))
  | .phrase text => state.resolve default (some (.keys text))
  | .operator .not => state.negate
  | .operator .and => (state.resolve default none).join .and
  | .operator .or => (state.resolve default none).join .or
  | .openParen => state.openGroup
  | .closeParen => (state.resolve default none).closeGroup default

/-- Closes the expressions that are still open, innermost first, and yields the node of the
outermost one. -/
def closeAll (default : Conjunction) (frame : Frame) (warnings : List Warning) :
    List Frame → Option Node × List Warning
  | [] =>
    let (frame, found) := frame.abandon
    (frame.fold.finish default, found.reverse ++ warnings)
  | around :: outer =>
    -- what the inner expression still waits for is reported before its missing parenthesis
    let (frame, found) := frame.abandon
    let (around, foundAround) := around.resolve default (frame.fold.finish default)
    closeAll default around
      (foundAround.reverse ++ .unclosedGroup :: (found.reverse ++ warnings)) outer

/-- The result at the end of the tokens. -/
def finish (default : Conjunction) (state : State) : Parsed :=
  let (node, warnings) := closeAll default state.frame state.warnings state.outer
  ⟨node, warnings.reverse⟩

end State

/-- The parser after one more token. -/
def step (default : Conjunction) (state : State) (token : Token) : State :=
  { state.take default token with position := state.position + 1 }

/-- The parser after some more tokens. -/
def run (default : Conjunction) (state : State) (tokens : List Token) : State :=
  tokens.foldl (step default) state

/-- Taking the tokens of two lists is taking those of the first, then those of the second. -/
theorem run_append (default : Conjunction) (state : State) (first second : List Token) :
    run default state (first ++ second) = run default (run default state first) second := by
  simp [run]

/-- The query tree of a list of tokens, with the warnings. The conjunction combines operands
with no operator between them. -/
def parse (default : Conjunction) (tokens : List Token) : Parsed :=
  (run default .initial tokens).finish default

end SearchKeys.Parser
