/-
# What one token does to the parser

A step of the parser changes the innermost frame, the frames around it and the number of
parentheses still to be skipped in one of nine ways. Everything that holds along a whole run
is derived from this list; only the warnings are left out of it.

## Main definitions

* `Fold.attach`: an operand with or without an operator in front of it.
* `Parser.Effect`: the ways in which a step can go.
* `Parser.nodeOf`: the node of the outermost expression when all frames are closed.

## Main results

* `Parser.step_effect`: a step goes in one of these ways.
* `Parser.parse_node`: the result of a parse by the frames that are left at its end.
-/

import SearchKeys.Query.Parser
import Mathlib.Logic.Function.Iterate

namespace SearchKeys

/-- Adds an operand that follows the previous one with the given operator in between, or with
none. -/
def Fold.attach (default : Conjunction) (link : Option Conjunction) (node : Node)
    (fold : Fold) : Fold :=
  match link with
  | none => fold.push node
  | some conjunction => fold.combine default conjunction node

/-- An operator with nothing on its left does not matter. -/
theorem Fold.combine_of_isEmpty {default conjunction : Conjunction} {node : Node} {fold : Fold}
    (empty : fold.isEmpty) : fold.combine default conjunction node = fold.push node := by
  cases fold with
  | run members =>
    obtain rfl : members = [] := by simpa [isEmpty] using empty
    rfl
  | chain conjunction operands => simp [isEmpty] at empty

theorem Fold.isEmpty_combine {default conjunction : Conjunction} (node : Node) (fold : Fold) :
    (fold.combine default conjunction node).isEmpty = false := by
  cases fold with
  | run members =>
    rw [combine]
    split <;> rfl
  | chain previous operands =>
    rw [combine]
    split <;> rfl

theorem Fold.isEmpty_attach {default : Conjunction} {link : Option Conjunction} {node : Node}
    {fold : Fold} : (fold.attach default link node).isEmpty = false := by
  match fold, link with
  | run _, none => rfl
  | chain _ _, none => rfl
  | fold, some conjunction => exact isEmpty_combine node fold

/-- If anything has been folded, there is a tree. -/
theorem Fold.exists_finish (default : Conjunction) {fold : Fold} (notEmpty : fold.isEmpty = false) :
    ∃ node, fold.finish default = some node := by
  match fold with
  | run [] => simp [isEmpty] at notEmpty
  | run [node] => exact ⟨node, rfl⟩
  | run (first :: second :: members) => exact ⟨_, rfl⟩
  | chain conjunction operands => exact ⟨_, rfl⟩

namespace Parser

variable {default : Conjunction} {state : State} {frame around : Frame} {outer : List Frame}

/-! ### Frames -/

namespace Frame

/-- The operator in front of the next operand. -/
def link (frame : Frame) : Option Conjunction :=
  frame.joiner.map Prod.fst

/-- The next operand behind the negations in front of it. -/
def negated (operand : Node) (frame : Frame) : Node :=
  Node.not^[frame.negations.length] operand

/-- An operand takes the negations and the operator that wait for it. -/
theorem accept_fst (operand : Node) :
    (frame.accept default operand).1 =
      ⟨frame.depth, frame.fold.attach default frame.link (frame.negated operand), none, []⟩ := by
  have wrapped : frame.negations.foldl (fun node _ => node.not) operand = frame.negated operand :=
    List.foldl_const ..
  rw [accept, wrapped]
  unfold link Fold.attach
  cases frame.joiner with
  | none => rfl
  | some joiner =>
    by_cases empty : frame.fold.isEmpty
    · simp [empty, Fold.combine_of_isEmpty empty]
    · simp [empty]

/-- Without an operand, what waits for it is dropped. -/
theorem abandon_fst : frame.abandon.1 = ⟨frame.depth, frame.fold, none, []⟩ := rfl

@[simp] theorem resolve_some (operand : Node) :
    frame.resolve default (some operand) = frame.accept default operand := rfl

@[simp] theorem resolve_none : frame.resolve default none = frame.abandon := rfl

/-- Behind an operand, or where it turned out that none follows, nothing waits any more. -/
theorem resolve_fst (operand : Option Node) : (frame.resolve default operand).1 =
    ⟨frame.depth, (frame.resolve default operand).1.fold, none, []⟩ := by
  cases operand with
  | none => rfl
  | some node => rw [resolve_some, accept_fst]

end Frame

/-! ### States -/

namespace State

@[simp] theorem record_frame (found : List Warning) : (state.record found).frame = state.frame :=
  rfl

@[simp] theorem record_outer (found : List Warning) : (state.record found).outer = state.outer :=
  rfl

@[simp] theorem record_skipped (found : List Warning) :
    (state.record found).skipped = state.skipped := rfl

@[simp] theorem skip_frame : state.skip.frame = state.frame := by
  unfold skip; split <;> rfl

@[simp] theorem skip_outer : state.skip.outer = state.outer := by
  unfold skip; split <;> rfl

@[simp] theorem skip_skipped : state.skip.skipped = state.skipped := by
  unfold skip; split <;> rfl

@[simp] theorem resolve_frame (operand : Option Node) :
    (state.resolve default operand).frame = (state.frame.resolve default operand).1 := rfl

@[simp] theorem resolve_outer (operand : Option Node) :
    (state.resolve default operand).outer = state.outer := rfl

@[simp] theorem resolve_skipped (operand : Option Node) :
    (state.resolve default operand).skipped = state.skipped := rfl

theorem atLimit_iff : state.atLimit = true ↔ maxDepth ≤ state.frame.operandDepth := by
  simp [atLimit]

end State

/-- The ways in which a step can go from a state: the innermost frame, the frames around it
and the number of parentheses to skip after it. -/
inductive Effect (default : Conjunction) (state : State) :
    Token → Frame → List Frame → Nat → Prop
  | key {token : Token} {text : String} (carries : token.key? = some text) :
    Effect default state token (state.frame.accept default (.keys text)).1 state.outer
      state.skipped
  | skipNot (limit : state.atLimit) :
    Effect default state (.operator .not) state.frame state.outer state.skipped
  | negate (room : ¬state.atLimit) :
    Effect default state (.operator .not)
      { state.frame with negations := state.position :: state.frame.negations }
      state.outer state.skipped
  | join (conjunction : Conjunction) :
    Effect default state (.operator (.ofConjunction conjunction))
      ⟨state.frame.depth, state.frame.fold, some (conjunction, state.position), []⟩
      state.outer state.skipped
  | skipOpen (limit : state.atLimit) :
    Effect default state .openParen state.frame state.outer (state.skipped + 1)
  | openGroup (room : ¬state.atLimit) :
    Effect default state .openParen (.fresh (state.frame.operandDepth + 1))
      (state.frame :: state.outer) state.skipped
  | swallow (waiting : 0 < state.skipped) :
    Effect default state .closeParen state.frame.abandon.1 state.outer (state.skipped - 1)
  | stray (noneSkipped : state.skipped = 0) (outermost : state.outer = []) :
    Effect default state .closeParen state.frame.abandon.1 state.outer state.skipped
  | closeGroup {around : Frame} {outer : List Frame} (noneSkipped : state.skipped = 0)
      (inside : state.outer = around :: outer) :
    Effect default state .closeParen
      (around.resolve default (state.frame.fold.finish default)).1 outer state.skipped

/-- A step goes in one of the listed ways. -/
theorem step_effect (default : Conjunction) (state : State) (token : Token) :
    Effect default state token (step default state token).frame
      (step default state token).outer (step default state token).skipped := by
  cases token with
  | term text => exact .key rfl
  | phrase text => exact .key rfl
  | operator op =>
    cases op with
    | and => exact .join .and
    | or => exact .join .or
    | not =>
      by_cases limit : state.atLimit
      · simpa [step, State.take, State.negate, limit] using Effect.skipNot limit
      · simpa [step, State.take, State.negate, limit] using Effect.negate limit
  | openParen =>
    by_cases limit : state.atLimit
    · simpa [step, State.take, State.openGroup, limit] using Effect.skipOpen limit
    · simpa [step, State.take, State.openGroup, limit] using Effect.openGroup limit
  | closeParen =>
    by_cases waiting : 0 < state.skipped
    · simpa [step, State.take, State.closeGroup, waiting] using Effect.swallow waiting
    · have noneSkipped : state.skipped = 0 := by omega
      cases inside : state.outer with
      | nil =>
        simpa [step, State.take, State.closeGroup, waiting, inside] using
          Effect.stray noneSkipped inside
      | cons around outer =>
        simpa [step, State.take, State.closeGroup, waiting, inside, Frame.abandon_fst] using
          Effect.closeGroup noneSkipped inside

/-- A right parenthesis closes the innermost group if none is to be skipped. -/
theorem step_closeGroup (default : Conjunction) (noneSkipped : state.skipped = 0)
    (inside : state.outer = around :: outer) :
    (step default state .closeParen).frame =
        (around.resolve default (state.frame.fold.finish default)).1 ∧
      (step default state .closeParen).outer = outer ∧
      (step default state .closeParen).skipped = 0 := by
  simp [step, State.take, State.closeGroup, noneSkipped, inside, Frame.abandon_fst]

/-- A right parenthesis that is swallowed only tells that no operand follows. -/
theorem step_swallow (default : Conjunction) (waiting : 0 < state.skipped) :
    (step default state .closeParen).frame = state.frame.abandon.1 ∧
      (step default state .closeParen).outer = state.outer ∧
      (step default state .closeParen).skipped = state.skipped - 1 := by
  simp [step, State.take, State.closeGroup, waiting]

/-- A right parenthesis outside of all groups only tells that no operand follows. -/
theorem step_stray (default : Conjunction) (noneSkipped : state.skipped = 0)
    (outermost : state.outer = []) :
    (step default state .closeParen).frame = state.frame.abandon.1 ∧
      (step default state .closeParen).outer = [] ∧
      (step default state .closeParen).skipped = 0 := by
  simp [step, State.take, State.closeGroup, noneSkipped, outermost]

@[simp] theorem run_nil : run default state [] = state := rfl

@[simp] theorem run_cons (token : Token) (tokens : List Token) :
    run default state (token :: tokens) = run default (step default state token) tokens := rfl

/-- What every step keeps holds after a run if it held before. -/
theorem run_keeps {holds : State → Prop} {tokens : List Token}
    (keeps : ∀ state, ∀ token ∈ tokens, holds state → holds (step default state token))
    (start : holds state) : holds (run default state tokens) := by
  induction tokens generalizing state with
  | nil => exact start
  | cons token tokens ih =>
    exact ih (fun state token member => keeps state token (.tail _ member))
      (keeps state token (.head _) start)

/-! ### The end of the tokens -/

/-- The node of the outermost expression when the frames are closed one after the other,
innermost first. -/
def nodeOf (default : Conjunction) (frame : Frame) : List Frame → Option Node
  | [] => frame.fold.finish default
  | around :: outer =>
    nodeOf default (around.resolve default (frame.fold.finish default)).1 outer

theorem closeAll_fst (warnings : List Warning) :
    (State.closeAll default frame warnings outer).1 = nodeOf default frame outer := by
  induction outer generalizing frame warnings with
  | nil => rfl
  | cons around outer ih => exact ih _

/-- The node of a parse is that of the frames left at the end. -/
theorem parse_node (tokens : List Token) :
    (parse default tokens).node =
      nodeOf default (run default .initial tokens).frame (run default .initial tokens).outer :=
  closeAll_fst _

end Parser

end SearchKeys
