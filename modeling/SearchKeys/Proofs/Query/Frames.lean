/-
# Frames stand for calls

A frame of the parser is what a recursive descent keeps in the calls that wait: one for its
expression and one for each negation in front of the next operand. The frames around it are
expressions that wait behind a left parenthesis. So the descent goes through the states of the
parser, one after the other, and the end of the tokens makes it return from all of its calls.

## Main definitions

* `Parser.Frame.callers`, `Parser.callersAround`: the calls that frames stand for.
* `Parser.State.Resumes`: the descent is where the parser is.
* `Parser.Descent.Finishes`: the first call of a descent returns with a parse.
* `Parser.Descent.Orderly`: a descent moves on, stays within the limit and ends.

## Main results

* `Parser.State.reaches_resolve`: an operand returns through the negations to its expression.
* `Parser.State.Resumes.step`: a token takes the descent to where it takes the parser.
* `Parser.exists_reached_finishes`: the descent comes to the result of the parser.
* `Parser.descent_orderly`: the descent through any tokens is orderly.
-/

import SearchKeys.Proofs.Query.Calls
import SearchKeys.Proofs.Query.Reading
import SearchKeys.Proofs.Query.Record

namespace SearchKeys.Parser

open Descent

variable {default : Conjunction} {tokens : List Token} {state : State} {token : Token}
  {descent : Descent}

/-- The calls of operands that begin with the given negations, innermost first, in front of the
calls around them. -/
def negationCallers (depth : Nat) (around : List Caller) : List Nat → List Caller
  | [] => around
  | position :: negations =>
    .negation (depth + negations.length) position :: negationCallers depth around negations

/-- The calls that wait for the next operand of a frame. -/
def Frame.callers (frame : Frame) (around : List Caller) : List Caller :=
  negationCallers frame.depth (.expression frame.depth frame.fold frame.joiner :: around)
    frame.negations

/-- Nothing waits for the next operand of a frame. -/
def Frame.Rests (frame : Frame) : Prop :=
  frame.joiner = none ∧ frame.negations = []

/-- The calls that wait for an expression inside of some frames. -/
def callersAround : List Frame → List Caller
  | [] => []
  | frame :: outer => .group frame.operandDepth :: frame.callers (callersAround outer)

namespace State

/-- The descent where the innermost expression is at the head of its loop. -/
def atHead (state : State) : Descent :=
  ⟨.expression state.frame.depth state.frame.fold, callersAround state.outer, state.position,
    state.skipped, state.limited, state.warnings⟩

/-- The descent at some point of the call of the next operand. -/
def inOperand (point : Nat → Point) (state : State) : Descent :=
  ⟨point state.frame.operandDepth, state.frame.callers (callersAround state.outer),
    state.position, state.skipped, state.limited, state.warnings⟩

/-- The descent where the innermost expression returns. -/
def leaving (default : Conjunction) (state : State) : Descent :=
  state.atHead.goTo (.expressionEnd state.frame.depth (state.frame.fold.finish default))

/-- The descent is where the parser is: at the head of a loop if nothing waits for an operand,
in the call of the next operand, or in the loop of that call that skips tokens. -/
inductive Resumes (state : State) : Descent → Prop
  | head (rests : state.frame.Rests) : Resumes state state.atHead
  | operand : Resumes state (state.inOperand .operand)
  | skipping (limit : state.atLimit) : Resumes state (state.inOperand .skipping)

/-- The descent goes on to where the parser is. -/
def ReachedFrom (default : Conjunction) (tokens : List Token) (descent : Descent) (state : State) :
    Prop :=
  ∃ after, Reaches default tokens descent after ∧ state.Resumes after

/-! ### Returns -/

theorem rests_resolve (default : Conjunction) (node : Option Node) (state : State) :
    (state.resolve default node).frame.Rests := by
  rw [resolve_frame, Frame.resolve_fst]
  exact ⟨rfl, rfl⟩

theorem atHead_resolve (default : Conjunction) (node : Option Node) (state : State) :
    (state.resolve default node).atHead =
      ⟨.expression state.frame.depth (state.frame.resolve default node).1.fold,
        callersAround state.outer, state.position, state.skipped, state.limited,
        (state.frame.resolve default node).2.reverse ++ state.warnings⟩ := by
  rw [atHead, resolve_frame, Frame.resolve_fst]
  rfl

/-- An operand returns through the negations in front of it to the expression that it belongs to. -/
theorem reaches_resolve (default : Conjunction) (tokens : List Token) (node : Option Node)
    (state : State) : Reaches default tokens (state.inOperand (.operandEnd · node))
      (state.resolve default node).atHead := by
  obtain ⟨⟨depth, fold, joiner, negations⟩, outer, position, skipped, limited, warnings⟩ := state
  induction negations generalizing node warnings with
  | nil =>
    rw [atHead_resolve]
    exact .single rfl
  | cons negation negations ih =>
    -- the innermost negation returns first, with a warning if it negates nothing
    cases node with
    | none =>
      have same : (State.resolve default none ⟨⟨depth, fold, joiner, negation :: negations⟩, outer,
            position, skipped, limited, warnings⟩).atHead =
          (State.resolve default none ⟨⟨depth, fold, joiner, negations⟩, outer, position, skipped,
            limited, .danglingOperator .not negation :: warnings⟩).atHead := by
        simp [atHead_resolve, Frame.abandon]
      rw [same]
      exact .head rfl (ih none _)
    | some node => exact .head rfl (ih (some node.not) warnings)

theorem callers_leaving (default : Conjunction) {around : Frame} {outer : List Frame}
    (inside : state.outer = around :: outer) : (state.leaving default).callers =
      .group around.operandDepth :: around.callers (callersAround outer) := by
  simp [leaving, goTo, atHead, inside, callersAround]

/-! ### Calls of an operand -/

theorem reaches_skipping (default : Conjunction) (tokens : List Token) (limit : state.atLimit) :
    Reaches default tokens (state.inOperand .operand) (state.inOperand .skipping) := by
  have deep : maxDepth ≤ state.frame.operandDepth := atLimit_iff.1 limit
  refine .single (congrArg some ?_)
  rw [if_pos deep]
  rfl

/-- Where no token is to be skipped, the loop that skips tokens is left. -/
theorem reaches_behind_skipping (default : Conjunction)
    (others : ∀ token, tokens[state.position]? = some token → ¬token.nests) :
    Reaches default tokens (state.inOperand .skipping) (state.inOperand .beginning) := by
  exact .single (congrArg some (skip_of_others others))

/-- A call of an operand that has nothing to skip comes to its beginning. -/
theorem reaches_beginning (default : Conjunction)
    (others : ∀ token, tokens[state.position]? = some token → ¬(state.atLimit ∧ token.nests)) :
    Reaches default tokens (state.inOperand .operand) (state.inOperand .beginning) := by
  by_cases limit : state.atLimit
  · have stays (token : Token) (sees : tokens[state.position]? = some token) : ¬token.nests :=
      fun nests => others token sees ⟨limit, nests⟩
    exact (reaches_skipping default tokens limit).trans (reaches_behind_skipping default stays)
  · have shallow : ¬maxDepth ≤ state.frame.operandDepth := mt atLimit_iff.2 limit
    refine .single (congrArg some ?_)
    rw [if_neg shallow]
    rfl

/-- Where an operand can begin, it is called, unless the descent skips tokens there already. -/
theorem Resumes.reaches_operand (resumes : Resumes state descent) (default : Conjunction)
    (sees : tokens[state.position]? = some token) (begins : token.beginsOperand) :
    Reaches default tokens descent (state.inOperand .operand) ∨
      state.atLimit ∧ descent = state.inOperand .skipping := by
  cases resumes with
  | head rests =>
    obtain ⟨⟨depth, fold, joiner, negations⟩, outer, position, skipped, limited, warnings⟩ := state
    obtain ⟨rfl, rfl⟩ := rests
    exact .inl (.single (congrArg some (loop_of_begins default fold sees begins)))
  | operand => exact .inl .refl
  | skipping limit => exact .inr ⟨limit, rfl⟩

/-- A token that nests too deep is met in the loop that skips it. -/
theorem Resumes.reaches_skipping (resumes : Resumes state descent) (default : Conjunction)
    (sees : tokens[state.position]? = some token) (nests : token.nests) (limit : state.atLimit) :
    Reaches default tokens descent (state.inOperand .skipping) := by
  have begins : token.beginsOperand := by simp [Token.beginsOperand, nests]
  rcases resumes.reaches_operand default sees begins with reaches | ⟨-, rfl⟩
  · exact reaches.trans (State.reaches_skipping default tokens limit)
  · exact .refl

/-- A token that begins an operand within the limit is met at its beginning. -/
theorem Resumes.reaches_beginning (resumes : Resumes state descent) (default : Conjunction)
    (sees : tokens[state.position]? = some token) (begins : token.beginsOperand)
    (room : ¬(state.atLimit ∧ token.nests)) :
    Reaches default tokens descent (state.inOperand .beginning) := by
  have others (token' : Token) (sees' : tokens[state.position]? = some token') :
      ¬(state.atLimit ∧ token'.nests) := Option.some.inj (sees.symm.trans sees') ▸ room
  rcases resumes.reaches_operand default sees begins with reaches | ⟨limit, rfl⟩
  · exact reaches.trans (State.reaches_beginning default others)
  · exact reaches_behind_skipping default fun token' sees' nests =>
      others token' sees' ⟨limit, nests⟩

/-- Where no operand can begin, the innermost expression goes on without one. -/
theorem Resumes.reaches_lack (resumes : Resumes state descent) (default : Conjunction)
    (others : ∀ token, tokens[state.position]? = some token → ¬token.beginsOperand) :
    Reaches default tokens descent (state.resolve default none).atHead := by
  have stays (token : Token) (sees : tokens[state.position]? = some token) : ¬token.nests :=
    fun nests => others token sees (by simp [Token.beginsOperand, nests])
  have lacks : next default tokens (state.inOperand .beginning) =
      some (state.inOperand (.operandEnd · none)) := congrArg some (begin_of_others others)
  have returns : Reaches default tokens (state.inOperand .beginning)
      (state.resolve default none).atHead :=
    .head lacks (reaches_resolve default tokens none state)
  cases resumes with
  | head rests =>
    obtain ⟨⟨depth, fold, joiner, negations⟩, outer, position, skipped, limited, warnings⟩ := state
    obtain ⟨rfl, rfl⟩ := rests
    exact .refl
  | operand =>
    exact (State.reaches_beginning default fun token sees deep => stays token sees deep.2).trans
      returns
  | skipping limit => exact (reaches_behind_skipping default stays).trans returns

/-! ### One token -/

/-- A key is the operand that is waited for. -/
theorem Resumes.key {text : String} (resumes : Resumes state descent) (default : Conjunction)
    (sees : tokens[state.position]? = some token) (carries : token.key? = some text) :
    ReachedFrom default tokens descent (step default state token) := by
  have begins : token.beginsOperand := by simp [Token.beginsOperand, carries]
  have other : ¬(state.atLimit ∧ token.nests) := by
    cases token <;> cases carries <;> simp [Token.nests]
  have beginning := resumes.reaches_beginning default sees begins other
  let taken : State := { state with position := state.position + 1 }
  have reads : next default tokens (state.inOperand .beginning) =
      some (taken.inOperand (.operandEnd · (some (.keys text)))) := by
    have advanced := advance_eq (state.inOperand .beginning) sees
    have sees' : tokens[(state.inOperand .beginning).position]? = some token := sees
    refine congrArg some ?_
    cases token <;> cases carries <;> rw [begin, sees'] <;> simp only [advanced] <;> rfl
  refine ⟨_, beginning.trans (.head reads (reaches_resolve default tokens _ taken)), ?_⟩
  have stepped : step default state token = taken.resolve default (some (.keys text)) := by
    cases token <;> cases carries <;> rfl
  rw [stepped]
  exact .head (rests_resolve default _ taken)

/-- What nests too deep is put on record by both in the same way. -/
theorem refuse_inOperand (point : Nat → Point) (state : State) :
    ({ state with position := state.position + 1 }.inOperand point).refuse state.position =
      { state.skip with position := state.position + 1 }.inOperand point := by
  obtain ⟨frame, outer, position, skipped, limited, warnings⟩ := state
  cases limited <;> rfl

/-- What nests too deep is skipped by both. -/
theorem Resumes.skip (resumes : Resumes state descent) (default : Conjunction)
    (sees : tokens[state.position]? = some token) (nests : token.nests) (limit : state.atLimit) :
    ReachedFrom default tokens descent (step default state token) := by
  have skipping := resumes.reaches_skipping default sees nests limit
  have stays : (Parser.step default state token).atLimit := by
    rw [atLimit_iff, (State.Skips.step ⟨limit, Token.nests_iff.1 nests⟩ default).1]
    exact atLimit_iff.1 limit
  have skipped : next default tokens (state.inOperand .skipping) =
      some ((Parser.step default state token).inOperand .skipping) := by
    have advanced := advance_eq (state.inOperand .skipping) sees
    have sees' : tokens[(state.inOperand .skipping).position]? = some token := sees
    have refused := refuse_inOperand .skipping state
    refine congrArg some ?_
    match token with
    | .openParen =>
      have stepped : Parser.step default state .openParen =
          { state.skip with skipped := state.skipped + 1, position := state.position + 1 } := by
        simp [Parser.step, take, openGroup, limit]
      rw [Descent.skip, sees', stepped]
      simp only [advanced]
      exact congrArg (fun after : Descent => { after with skipped := state.skipped + 1 }) refused
    | .operator .not =>
      have stepped : Parser.step default state (.operator .not) =
          { state.skip with position := state.position + 1 } := by
        simp [Parser.step, take, State.negate, limit]
      rw [Descent.skip, sees', stepped]
      simp only [advanced]
      exact refused
  exact ⟨_, skipping.tail skipped, .skipping stays⟩

/-- A `NOT` or a left parenthesis within the limit begins an operand that calls another procedure. -/
theorem Resumes.nest (resumes : Resumes state descent) (default : Conjunction)
    (sees : tokens[state.position]? = some token) (nests : token.nests) (room : ¬state.atLimit) :
    ReachedFrom default tokens descent (step default state token) := by
  have begins : token.beginsOperand := by simp [Token.beginsOperand, nests]
  have beginning := resumes.reaches_beginning default sees begins fun deep => room deep.1
  have advanced := advance_eq (state.inOperand .beginning) sees
  have sees' : tokens[(state.inOperand .beginning).position]? = some token := sees
  have shallow : state.frame.operandDepth < maxDepth := by
    simpa using mt atLimit_iff.2 room
  match token with
  | .openParen =>
    have called : next default tokens (state.inOperand .beginning) =
        some (step default state .openParen).atHead := by
      refine congrArg some ?_
      rw [begin, sees', step_openParen default shallow]
      simp only [advanced]
      rfl
    refine ⟨_, beginning.tail called, ?_⟩
    rw [step_openParen default shallow]
    exact .head ⟨rfl, rfl⟩
  | .operator .not =>
    have called : next default tokens (state.inOperand .beginning) =
        some ((step default state (.operator .not)).inOperand .operand) := by
      refine congrArg some ?_
      rw [begin, sees', step_not default shallow]
      simp only [advanced]
      rfl
    exact ⟨_, beginning.tail called, .operand⟩

/-- An operator waits in the call of its second operand. -/
theorem Resumes.join (resumes : Resumes state descent) (default conjunction : Conjunction)
    (sees : tokens[state.position]? = some (.operator (.ofConjunction conjunction))) :
    ReachedFrom default tokens descent
      (step default state (.operator (.ofConjunction conjunction))) := by
  have others (token : Token) (sees' : tokens[state.position]? = some token) :
      ¬token.beginsOperand := by
    rw [← Option.some.inj (sees.symm.trans sees')]
    cases conjunction <;> nofun
  have lacks := resumes.reaches_lack default others
  have advanced := advance_eq (state.resolve default none).atHead sees
  have sees' : tokens[(state.resolve default none).atHead.position]? =
    some (.operator (.ofConjunction conjunction)) := sees
  have called : next default tokens (state.resolve default none).atHead =
      some ((step default state (.operator (.ofConjunction conjunction))).inOperand .operand) := by
    refine congrArg some ?_
    rw [loop, sees']
    cases conjunction <;> simp only [Operator.ofConjunction, advanced] <;> rfl
  exact ⟨_, lacks.tail called, .operand⟩

/-- At the head of its loop, an expression is left at a right parenthesis of its own, and goes on
behind any other one. -/
theorem reaches_closeGroup (default : Conjunction) (rests : state.frame.Rests)
    (sound : Sound tokens state.atHead) (sees : tokens[state.position]? = some .closeParen) :
    ReachedFrom default tokens state.atHead
      { state.closeGroup default with position := state.position + 1 } := by
  have called : Called .expression state.frame.depth (callersAround state.outer) := sound.called
  have advanced := advance_eq state.atHead sees
  have sees' : tokens[state.atHead.position]? = some .closeParen := sees
  by_cases waiting : 0 < state.skipped
  · have swallowed : next default tokens state.atHead =
        some ({ state with skipped := state.skipped - 1, position := state.position + 1 } :
          State).atHead := by
      refine congrArg some ?_
      rw [loop, sees']
      simp only [advanced]
      exact if_pos waiting
    rw [State.closeGroup, if_pos waiting]
    exact ⟨_, .single swallowed, .head rests⟩
  · rw [State.closeGroup, if_neg waiting]
    cases inside : state.outer with
    | nil =>
      have outermost : ¬0 < state.frame.depth := by
        simp [called.depth_eq_zero_iff, inside, callersAround]
      have stray : next default tokens state.atHead =
          some ({ state.record [.unmatchedCloseParen state.position] with
            position := state.position + 1 } : State).atHead := by
        refine congrArg some ?_
        rw [loop, sees']
        simp only [advanced]
        exact (if_neg waiting).trans (if_neg outermost)
      exact ⟨_, .single stray, .head rests⟩
    | cons around outer =>
      have nested : 0 < state.frame.depth := by
        simp [Nat.pos_iff_ne_zero, called.depth_eq_zero_iff, inside, callersAround]
      have leaves : next default tokens state.atHead = some (state.leaving default) := by
        refine congrArg some ?_
        rw [loop, sees']
        exact (if_neg waiting).trans (if_pos nested)
      let behind : State :=
        { state with frame := around, outer := outer, position := state.position + 1 }
      have returns : next default tokens (state.leaving default) =
          some (behind.inOperand (.operandEnd · (state.frame.fold.finish default))) := by
        have advanced := advance_eq (state.leaving default) sees
        have sees' : tokens[(state.leaving default).position]? = some .closeParen := sees
        show returnExpression tokens _ _ = _
        rw [returnExpression, callers_leaving default inside]
        simp only [sees', advanced]
        rfl
      have resolves := reaches_resolve default tokens (state.frame.fold.finish default) behind
      exact ⟨_, .head leaves (.head returns resolves), .head (rests_resolve default _ behind)⟩

/-- A right parenthesis lets the innermost expression return, or is left out by both. -/
theorem Resumes.close (resumes : Resumes state descent) (sound : Sound tokens descent)
    (default : Conjunction) (sees : tokens[state.position]? = some .closeParen) :
    ReachedFrom default tokens descent (step default state .closeParen) := by
  have others (token : Token) (sees' : tokens[state.position]? = some token) :
      ¬token.beginsOperand := by
    rw [← Option.some.inj (sees.symm.trans sees')]
    nofun
  have lacks := resumes.reaches_lack default others
  obtain ⟨after, reaches, resumed⟩ :=
    reaches_closeGroup default (rests_resolve default none state) (sound.reaches lacks) sees
  exact ⟨after, lacks.trans reaches, resumed⟩

/-- A token takes the descent to where it takes the parser. -/
theorem Resumes.step (resumes : Resumes state descent) (sound : Sound tokens descent)
    (default : Conjunction) (sees : tokens[state.position]? = some token) :
    ReachedFrom default tokens descent (step default state token) := by
  match token with
  | .term text => exact resumes.key default sees rfl
  | .phrase text => exact resumes.key default sees rfl
  | .operator .and => exact resumes.join default .and sees
  | .operator .or => exact resumes.join default .or sees
  | .operator .not =>
    by_cases limit : state.atLimit
    · exact resumes.skip default sees rfl limit
    · exact resumes.nest default sees rfl limit
  | .openParen =>
    by_cases limit : state.atLimit
    · exact resumes.skip default sees rfl limit
    · exact resumes.nest default sees rfl limit
  | .closeParen => exact resumes.close sound default sees

/-! ### The end of the tokens -/

theorem abandon_of_rests {frame : Frame} (rests : frame.Rests) : frame.abandon = (frame, []) := by
  obtain ⟨depth, fold, joiner, negations⟩ := frame
  obtain ⟨rfl, rfl⟩ := rests
  rfl

theorem next_atHead_of_ended (default : Conjunction) (ended : tokens[state.position]? = none) :
    next default tokens state.atHead = some (state.leaving default) := by
  have sees : tokens[state.atHead.position]? = none := ended
  refine congrArg some ?_
  rw [loop, sees]
  rfl

/-- At the end of the tokens, the expressions that are still open return one after the other. -/
theorem reaches_finish (default : Conjunction) (rests : state.frame.Rests)
    (ended : tokens[state.position]? = none) :
    ∃ last depth, Reaches default tokens state.atHead last ∧
      last.point = .expressionEnd depth (state.finish default).node ∧ last.callers = [] ∧
      last.position = state.position ∧ last.warnings.reverse = (state.finish default).warnings := by
  induction inside : state.outer generalizing state with
  | nil =>
    have callers_eq : (state.leaving default).callers = [] := by
      simp [leaving, goTo, atHead, inside, callersAround]
    have finish_eq : state.finish default =
        ⟨state.frame.fold.finish default, state.warnings.reverse⟩ := by
      simp [finish, inside, closeAll, abandon_of_rests rests]
    rw [finish_eq]
    exact ⟨_, _, .single (next_atHead_of_ended default ended), rfl, callers_eq, rfl, rfl⟩
  | cons around outer ih =>
    -- the innermost expression returns to its group, whose right parenthesis is missing
    let node := state.frame.fold.finish default
    let behind : State :=
      { state with frame := around, outer := outer, warnings := .unclosedGroup :: state.warnings }
    have returns : next default tokens (state.leaving default) =
        some (behind.inOperand (.operandEnd · node)) := by
      have sees : tokens[(state.leaving default).position]? = none := ended
      show returnExpression tokens _ _ = _
      rw [returnExpression, callers_leaving default inside]
      simp only [sees]
      rfl
    have finish_eq : state.finish default = (behind.resolve default node).finish default := by
      simp only [finish, inside, closeAll, abandon_of_rests rests]
      rfl
    obtain ⟨last, depth, reaches, returned⟩ := ih (rests_resolve default node behind) ended rfl
    rw [finish_eq]
    exact ⟨last, depth, .head (next_atHead_of_ended default ended)
      (.head returns ((reaches_resolve default tokens node behind).trans reaches)), returned⟩

/-- What waits at the end of the tokens is dropped there in any case. -/
theorem finish_resolve_none (default : Conjunction) (state : State) :
    (state.resolve default none).finish default = state.finish default := by
  obtain ⟨frame, outer, position, skipped, limited, warnings⟩ := state
  cases outer <;> rfl

end State

/-- The descent passes through all states of the parser. -/
theorem reachedFrom_run (default : Conjunction) (before rest : List Token) :
    State.ReachedFrom default (before ++ rest) start (run default .initial before) := by
  induction before using List.reverseRecOn generalizing rest with
  | nil => exact ⟨start, .refl, .head ⟨rfl, rfl⟩⟩
  | append_singleton before token ih =>
    -- the descent sees all tokens from the start, so the last step is the one to add
    obtain ⟨descent, reached, resumes⟩ := ih (token :: rest)
    have sees : (before ++ token :: rest)[(run default .initial before).position]? =
        some token := by
      rw [run_initial_position]
      simp
    obtain ⟨after, reaches, resumes'⟩ := resumes.step (Reached.sound reached) default sees
    rw [List.append_assoc, run_concat]
    exact ⟨after, reached.trans reaches, resumes'⟩

/-- The first call returns with a parse of all tokens. -/
structure Descent.Finishes (tokens : List Token) (parsed : Parsed) (last : Descent) : Prop where
  /-- It is the first call that returns the tree. -/
  point_eq : last.point = .expressionEnd 0 parsed.node
  /-- No call waits for it. -/
  callers_eq : last.callers = []
  /-- All tokens are taken. -/
  position_eq : last.position = tokens.length
  /-- The same warnings are on record. -/
  warnings_eq : last.warnings.reverse = parsed.warnings

theorem Descent.Finishes.next_eq_none {parsed : Parsed}
    (finishes : Finishes tokens parsed descent) (default : Conjunction) :
    next default tokens descent = none := by
  rw [next, finishes.point_eq]
  show returnExpression tokens _ _ = none
  rw [returnExpression, finishes.callers_eq]

/-- The descent comes to the result of the parser. -/
theorem exists_reached_finishes (default : Conjunction) (tokens : List Token) :
    ∃ last, Reached default tokens last ∧ Finishes tokens (parse default tokens) last := by
  obtain ⟨descent, reached, resumes⟩ := reachedFrom_run default tokens []
  rw [List.append_nil] at reached
  have taken := run_initial_position default tokens
  have ended : tokens[(run default .initial tokens).position]? = none :=
    List.getElem?_eq_none_iff.2 taken.ge
  have lacks := resumes.reaches_lack default fun token sees => nomatch ended.symm.trans sees
  obtain ⟨last, depth, reaches, point_eq, callers_eq, position_eq, warnings_eq⟩ :=
    State.reaches_finish default (State.rests_resolve default none (run default .initial tokens))
      ended
  have reached_last : Reached default tokens last := (reached.trans lacks).trans reaches
  have finish_eq : ((run default .initial tokens).resolve default none).finish default =
      parse default tokens := State.finish_resolve_none default _
  have outermost : depth = 0 := by
    have called := reached_last.sound.called
    rw [point_eq] at called
    exact called.depth_eq_zero_iff.2 callers_eq
  rw [finish_eq] at point_eq warnings_eq
  exact ⟨last, reached_last, outermost ▸ point_eq, callers_eq, position_eq.trans taken, warnings_eq⟩

/-- The descent through some tokens goes on until all of its calls have returned, and how many
calls there are at a time does not depend on the tokens. -/
structure Descent.Orderly (default : Conjunction) (tokens : List Token) : Prop where
  /-- The descent comes to each state that the parser is in between two tokens. -/
  passes : ∀ count, ∃ descent, Reached default tokens descent ∧
    (run default .initial (tokens.take count)).Resumes descent
  /-- An iteration that does not leave its loop has taken a token when the loop is at its head
  again. -/
  advances : ∀ {descent after later : Descent}, Reached default tokens descent →
    Iterates default tokens descent after → Reaches default tokens after later →
    later.point.loop? = descent.point.loop? → descent.position < later.position
  /-- No depth beyond the limit is passed to a call. -/
  depth_le : ∀ {descent : Descent}, Reached default tokens descent →
    ∀ depth ∈ descent.depths, depth ≤ maxDepth
  /-- So the number of calls that have not returned is limited as well. -/
  height_le : ∀ {descent : Descent}, Reached default tokens descent →
    descent.height ≤ 2 * maxDepth + 3
  /-- An expression returns at the end of the tokens, or inside of parentheses in front of a right
  one that does not belong to a skipped one. -/
  returns : ∀ {descent : Descent} {depth : Nat} {node : Option Node},
    Reached default tokens descent → descent.point = .expressionEnd depth node →
    descent.position = tokens.length ∨
      0 < depth ∧ tokens[descent.position]? = some .closeParen ∧ descent.skipped = 0
  /-- There is a last point, which all others lead to. There the first call returns with the
  parse of the tokens, all of which are taken. -/
  ends : ∃ last, next default tokens last = none ∧ Finishes tokens (parse default tokens) last ∧
    ∀ {descent : Descent}, Reached default tokens descent → Reaches default tokens descent last

/-- Reading any tokens by recursive descent is orderly, whichever the default conjunction is. -/
theorem descent_orderly (default : Conjunction) (tokens : List Token) :
    Orderly default tokens where
  passes count := by
    have reaches := reachedFrom_run default (tokens.take count) (tokens.drop count)
    rwa [List.take_append_drop] at reaches
  advances _ iterates reaches again := iterates.position_lt reaches again
  depth_le reached _ passed := reached.sound.depth_le passed
  height_le reached := reached.sound.height_le
  returns reached here := reached.sound.returns here
  ends := by
    obtain ⟨last, reached, finishes⟩ := exists_reached_finishes default tokens
    have stops := finishes.next_eq_none default
    exact ⟨last, stops, finishes, fun reached' => reaches_of_next_eq_none reached' reached stops⟩

end SearchKeys.Parser
