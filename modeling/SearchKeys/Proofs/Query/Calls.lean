/-
# The calls of a descent

An expression passes its depth on to its operands, and an operand that calls something passes on
one more. It only does so behind a token that it would have skipped at the limit. So no depth
exceeds the limit, and there are never more than two calls for each depth.

Loops make progress. The token that an iteration begins with is taken at once or by the operand
that is called for it, because a call of an operand is only made there in front of a token that an
operand can begin with.

## Main definitions

* `Parser.Descent.depths`, `Parser.Descent.height`: the depths and the number of the calls that
  have not returned.
* `Parser.Descent.Called`: calls that can wait for each other.
* `Parser.Descent.Sound`: what holds at every point of a descent.
* `Parser.Descent.Iterates`: an iteration of a loop begins that does not leave it.

## Main results

* `Parser.Descent.Reached.sound`: every point that is reached is sound.
* `Parser.Descent.Iterates.position_lt`: an iteration that does not leave its loop moves on.
-/

import SearchKeys.Proofs.Query.Descent

namespace SearchKeys.Parser.Descent

/-- The two procedures. -/
inductive Procedure
  | expression
  | operand

/-- The procedure that runs. -/
def Point.procedure : Point → Procedure
  | expression _ _ => .expression
  | expressionEnd _ _ => .expression
  | operand _ => .operand
  | skipping _ => .operand
  | beginning _ => .operand
  | operandEnd _ _ => .operand

/-- The depth that was passed to the call that runs. -/
def Point.depth : Point → Nat
  | expression depth _ => depth
  | expressionEnd depth _ => depth
  | operand depth => depth
  | skipping depth => depth
  | beginning depth => depth
  | operandEnd depth _ => depth

/-- The depth that was passed to a call that waits. -/
def Caller.depth : Caller → Nat
  | expression depth _ _ => depth
  | negation depth _ => depth
  | group depth => depth

/-- The depths that were passed to the calls that have not returned. -/
def depths (descent : Descent) : List Nat :=
  descent.point.depth :: descent.callers.map Caller.depth

/-- The number of calls that have not returned. The loop that skips tokens counts as one, because
it may be a procedure of its own. -/
def height (descent : Descent) : Nat :=
  match descent.point with
  | .skipping _ => descent.callers.length + 2
  | _ => descent.callers.length + 1

/-- The calls that can wait for a procedure with some depth: an expression calls an operand of the
same depth, and an operand within the limit calls something that is one deeper. -/
inductive Called : Procedure → Nat → List Caller → Prop
  | start : Called .expression 0 []
  | expression {depth : Nat} {callers : List Caller} (fold : Fold)
      (joiner : Option (Conjunction × Nat)) (called : Called .expression depth callers) :
    Called .operand depth (.expression depth fold joiner :: callers)
  | negation {depth : Nat} {callers : List Caller} (position : Nat) (room : depth < maxDepth)
      (called : Called .operand depth callers) :
    Called .operand (depth + 1) (.negation depth position :: callers)
  | group {depth : Nat} {callers : List Caller} (room : depth < maxDepth)
      (called : Called .operand depth callers) :
    Called .expression (depth + 1) (.group depth :: callers)

variable {default : Conjunction} {tokens : List Token} {descent after later : Descent}
  {token : Token} {depth : Nat}

namespace Called

variable {procedure : Procedure} {callers : List Caller}

/-- Only the first call is an expression of depth zero. -/
theorem depth_eq_zero_iff (called : Called .expression depth callers) :
    depth = 0 ↔ callers = [] := by
  cases called <;> simp

theorem depth_le (called : Called procedure depth callers) : depth ≤ maxDepth := by
  induction called with
  | start => exact Nat.zero_le _
  | expression fold joiner called ih => exact ih
  | negation position room called => exact room
  | group room called => exact room

/-- No call that waits is deeper than the one that it waits for. -/
theorem depth_caller_le (called : Called procedure depth callers) {caller : Caller}
    (member : caller ∈ callers) : caller.depth ≤ depth := by
  induction called with
  | start => cases member
  | expression fold joiner called ih =>
    rcases List.mem_cons.1 member with rfl | member
    · exact Nat.le_refl _
    · exact ih member
  | negation position room called ih =>
    rcases List.mem_cons.1 member with rfl | member
    · exact Nat.le_succ _
    · exact Nat.le_succ_of_le (ih member)
  | group room called ih =>
    rcases List.mem_cons.1 member with rfl | member
    · exact Nat.le_succ _
    · exact Nat.le_succ_of_le (ih member)

/-- At most two calls wait for each level of depth, and one more for an operand. -/
theorem length_le (called : Called procedure depth callers) :
    callers.length ≤ 2 * depth + 1 ∧ (procedure = .expression → callers.length ≤ 2 * depth) := by
  induction called with
  | start => simp
  | expression fold joiner called ih =>
    have below := ih.2 rfl
    simp only [List.length_cons]
    exact ⟨by omega, nofun⟩
  | negation position room called ih =>
    simp only [List.length_cons]
    exact ⟨by omega, nofun⟩
  | group room called ih =>
    simp only [List.length_cons]
    exact ⟨by omega, fun _ => by omega⟩

end Called

/-- What is known where the descent has come: an operand that is nested further has room, and an
expression returns at the end of the tokens or in front of its right parenthesis. -/
def Arrives (tokens : List Token) (descent : Descent) : Prop :=
  match descent.point with
  | .beginning depth =>
    ∀ token, tokens[descent.position]? = some token → token.nests → depth < maxDepth
  | .expressionEnd depth _ =>
    descent.position = tokens.length ∨
      0 < depth ∧ tokens[descent.position]? = some .closeParen ∧ descent.skipped = 0
  | _ => True

/-- What holds at every point of a descent. -/
structure Sound (tokens : List Token) (descent : Descent) : Prop where
  /-- Not more tokens are taken than there are. -/
  position_le : descent.position ≤ tokens.length
  /-- The calls that wait fit to the one that runs. -/
  called : Called descent.point.procedure descent.point.depth descent.callers
  /-- The call that runs has come to where it is. -/
  arrives : Arrives tokens descent

theorem sound_start (tokens : List Token) : Sound tokens start :=
  ⟨Nat.zero_le _, .start, trivial⟩

/-- Each move keeps it. -/
theorem Sound.next (sound : Sound tokens descent)
    (moved : next default tokens descent = some after) : Sound tokens after := by
  obtain ⟨point, callers, position, skipped, limited, warnings⟩ := descent
  obtain ⟨point', callers', position', skipped', limited', warnings'⟩ := after
  have move : Move default tokens position skipped point callers point' callers' position'
    skipped' := moves_of_next moved
  obtain ⟨position_le, called, arrives⟩ := sound
  dsimp only at position_le called
  have within {token : Token} (sees : tokens[position]? = some token) :
      position + 1 ≤ tokens.length := (List.getElem?_eq_some_iff.1 sees).1
  cases move with
  | swallow sees waiting => exact ⟨within sees, called, trivial⟩
  | stray sees noneSkipped => exact ⟨within sees, called, trivial⟩
  | leave ends =>
    have ended (none : tokens[position]? = none) : position = tokens.length :=
      Nat.le_antisymm position_le (List.getElem?_eq_none_iff.1 none)
    exact ⟨position_le, called, ends.imp_left ended⟩
  | join conjunction sees => exact ⟨within sees, .expression _ _ called, trivial⟩
  | read sees begins => exact ⟨position_le, .expression _ _ called, trivial⟩
  | atLimit limit => exact ⟨position_le, called, trivial⟩
  | inRoom room => exact ⟨position_le, called, fun _ _ _ => room⟩
  | skipNot sees => exact ⟨within sees, called, trivial⟩
  | skipOpen sees => exact ⟨within sees, called, trivial⟩
  | skipped others =>
    exact ⟨position_le, called, fun token sees nests => absurd nests (others token sees)⟩
  | negate sees => exact ⟨within sees, .negation _ (arrives _ sees rfl) called, trivial⟩
  | openGroup sees => exact ⟨within sees, .group (arrives _ sees rfl) called, trivial⟩
  | key sees carries => exact ⟨within sees, called, trivial⟩
  | lack others => exact ⟨position_le, called, trivial⟩
  | attach =>
    cases called with
    | expression fold joiner called => exact ⟨position_le, called, trivial⟩
  | negated =>
    cases called with
    | negation position room called => exact ⟨position_le, called, trivial⟩
  | closeGroup sees =>
    cases called with
    | group room called => exact ⟨within sees, called, trivial⟩
  | unclosed lacks =>
    cases called with
    | group room called => exact ⟨position_le, called, trivial⟩

theorem Sound.reaches (sound : Sound tokens descent)
    (reaches : Reaches default tokens descent later) : Sound tokens later := by
  induction reaches with
  | refl => exact sound
  | tail _ moved ih => exact ih.next moved

theorem Reached.sound (reached : Reached default tokens descent) : Sound tokens descent :=
  (sound_start tokens).reaches reached

namespace Sound

/-- Where an expression returns. -/
theorem returns (sound : Sound tokens descent) {node : Option Node}
    (here : descent.point = .expressionEnd depth node) :
    descent.position = tokens.length ∨
      0 < depth ∧ tokens[descent.position]? = some .closeParen ∧ descent.skipped = 0 := by
  have arrives := sound.arrives
  rwa [Arrives, here] at arrives

theorem depth_le (sound : Sound tokens descent) (passed : depth ∈ descent.depths) :
    depth ≤ maxDepth := by
  have limit := sound.called.depth_le
  rcases List.mem_cons.1 passed with rfl | passed
  · exact limit
  · obtain ⟨caller, member, rfl⟩ := List.mem_map.1 passed
    exact Nat.le_trans (sound.called.depth_caller_le member) limit

theorem height_le (sound : Sound tokens descent) : descent.height ≤ 2 * maxDepth + 3 := by
  have limit := sound.called.depth_le
  have count := sound.called.length_le.1
  unfold height
  split <;> omega

end Sound

/-! ### Progress -/

/-- The procedure whose loop begins an iteration at the point, if one does. -/
def Point.loop? : Point → Option Procedure
  | expression _ _ => some .expression
  | skipping _ => some .operand
  | _ => none

/-- Whether a loop was left right in front of the point. -/
def Point.isBehindLoop : Point → Bool
  | expressionEnd _ _ => true
  | beginning _ => true
  | _ => false

/-- Whether an operand has been called and has not yet taken a token. -/
def Point.facesOperand : Point → Bool
  | operand _ => true
  | skipping _ => true
  | beginning _ => true
  | _ => false

/-- An iteration of a loop begins with the move between two points, and does not leave it. -/
def Iterates (default : Conjunction) (tokens : List Token) (descent after : Descent) : Prop :=
  descent.point.loop? ≠ none ∧ next default tokens descent = some after ∧
    after.point.isBehindLoop = false

/-- An operand that can begin at a position has been called there, and has not yet taken a token. -/
def Faces (tokens : List Token) (place : Nat) (descent : Descent) : Prop :=
  descent.position = place ∧ descent.point.facesOperand ∧
    ∃ token, tokens[place]? = some token ∧ token.beginsOperand

namespace Move

variable {position skipped position' skipped' : Nat} {point point' : Point}
  {callers callers' : List Caller}

theorem position_le
    (move : Move default tokens position skipped point callers point' callers' position' skipped') :
    position ≤ position' := by
  cases move <;> first | exact Nat.le_refl _ | exact Nat.le_succ _

/-- A call of an operand goes on with the token that it begins with until it takes it. -/
theorem facesOperand
    (move : Move default tokens position skipped point callers point' callers' position' skipped')
    (faces : point.facesOperand) (sees : tokens[position]? = some token)
    (begins : token.beginsOperand) :
    position < position' ∨ position' = position ∧ point'.facesOperand := by
  cases move with
  | atLimit limit => exact .inr ⟨rfl, rfl⟩
  | inRoom room => exact .inr ⟨rfl, rfl⟩
  | skipNot sees => exact .inl (Nat.lt_succ_self _)
  | skipOpen sees => exact .inl (Nat.lt_succ_self _)
  | skipped others => exact .inr ⟨rfl, rfl⟩
  | negate sees => exact .inl (Nat.lt_succ_self _)
  | openGroup sees => exact .inl (Nat.lt_succ_self _)
  | key sees carries => exact .inl (Nat.lt_succ_self _)
  | lack others => exact absurd begins (others token sees)
  | _ => cases faces

/-- An iteration that does not leave its loop takes a token, or calls an operand that begins with
it. -/
theorem of_loop
    (move : Move default tokens position skipped point callers point' callers' position' skipped')
    (atHead : point.loop? ≠ none) (stays : point'.isBehindLoop = false) :
    position < position' ∨ point.loop? = some .expression ∧ position' = position ∧
      point'.facesOperand ∧ ∃ token, tokens[position]? = some token ∧ token.beginsOperand := by
  cases move with
  | swallow sees waiting => exact .inl (Nat.lt_succ_self _)
  | stray sees noneSkipped => exact .inl (Nat.lt_succ_self _)
  | leave ends => cases stays
  | join conjunction sees => exact .inl (Nat.lt_succ_self _)
  | read sees begins => exact .inr ⟨rfl, rfl, rfl, _, sees, begins⟩
  | skipNot sees => exact .inl (Nat.lt_succ_self _)
  | skipOpen sees => exact .inl (Nat.lt_succ_self _)
  | skipped others => cases stays
  | _ => exact absurd rfl atHead

end Move

theorem position_le_of_next (moved : next default tokens descent = some after) :
    descent.position ≤ after.position :=
  Move.position_le (moves_of_next moved)

theorem Reaches.position_le (reaches : Reaches default tokens descent later) :
    descent.position ≤ later.position := by
  induction reaches with
  | refl => exact Nat.le_refl _
  | tail _ moved ih => exact Nat.le_trans ih (position_le_of_next moved)

/-- What an operand can begin with is taken before the operand returns. -/
theorem Faces.reaches {place : Nat} (faces : Faces tokens place descent)
    (reaches : Reaches default tokens descent later) :
    place < later.position ∨ Faces tokens place later := by
  induction reaches with
  | refl => exact .inr faces
  | tail _ moved ih =>
    rcases ih with passed | ⟨rfl, facing, token, sees, begins⟩
    · exact .inl (Nat.lt_of_lt_of_le passed (position_le_of_next moved))
    · refine (Move.facesOperand (moves_of_next moved) facing sees begins).imp_right ?_
      exact fun ⟨same, facing'⟩ => ⟨same, facing', token, sees, begins⟩

/-- Wherever a loop is at its head again, some token has been taken since the iteration began. -/
theorem Iterates.position_lt (iterates : Iterates default tokens descent after)
    (reaches : Reaches default tokens after later)
    (again : later.point.loop? = descent.point.loop?) : descent.position < later.position := by
  obtain ⟨atHead, moved, stays⟩ := iterates
  rcases Move.of_loop (moves_of_next moved) atHead stays with passed | ⟨loops, faces⟩
  · exact Nat.lt_of_lt_of_le passed reaches.position_le
  · rcases Faces.reaches faces reaches with passed | ⟨-, facing, -⟩
    · exact passed
    · -- an operand that has taken no token is not at the head of the loop of an expression
      rw [loops] at again
      revert facing again
      cases later.point <;> simp [Point.loop?, Point.facesOperand]

end SearchKeys.Parser.Descent
