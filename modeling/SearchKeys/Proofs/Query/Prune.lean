/-
# Pruning what is skipped

Keys that nest too deep are read as if the tokens that the parser skips were not there, nor the
right parentheses that are swallowed with them. There is one more thing to leave out: a right
parenthesis ends an expression even if it is swallowed, so that an operator directly in front of
it combines nothing.

## Main definitions

* `Parser.InVain`: tokens that end without an operand at a swallowed right parenthesis.
* `Parser.prune`: the tokens that make a difference.
* `Parser.ahead`: the state in front of a token, without what waits in vain.

## Main results

* `Parser.alike_prune`: reading the pruned keys is reading all keys ahead.
* `Parser.parse_prune`: pruned keys have the same tree.
-/

import SearchKeys.Proofs.Query.Parallel
import SearchKeys.Proofs.Query.Skipping

namespace SearchKeys

/-- Whether the token is an operator. -/
def Token.isOperator : Token → Bool
  | operator _ => true
  | _ => false

namespace Parser

variable {default : Conjunction} {state : State} {frame frame' : Frame}
  {tokens : List Token} {token : Token} {position : Nat}

/-- From the position on, only operators and skipped tokens stand in front of a right parenthesis
that matches a skipped one. -/
def InVain (default : Conjunction) (tokens : List Token) (position : Nat) : Prop :=
  ∃ close < tokens.length, position ≤ close ∧ ClosesSkipped default tokens close ∧
    ∀ between < close, position ≤ between →
      (∃ token ∈ tokens[between]?, token.isOperator) ∨ IsSkipped default tokens between

instance : DecidablePred (InVain default tokens) := fun _ =>
  inferInstanceAs (Decidable (∃ close < _, _ ∧ _ ∧ ∀ between < _, _))

/-- The token at the position is skipped, or in vain. -/
def Pruned (default : Conjunction) (tokens : List Token) (position : Nat) : Prop :=
  IsSkipped default tokens position ∨ InVain default tokens position

instance : DecidablePred (Pruned default tokens) := fun _ =>
  inferInstanceAs (Decidable (_ ∨ _))

/-- The tokens without those that are skipped, the right parentheses that match them, and the
operators that have no operand in front of these. -/
def prune (default : Conjunction) (tokens : List Token) : List Token :=
  without (Pruned default tokens) tokens

/-- If the same waits in all open frames, wherever it stood, the nodes at the end are the same. -/
theorem nodeOf_eq_of_alike {outer outer' : List Frame}
    (alike : frame.Parallel Eq (fun _ _ => True) 0 frame')
    (around : Frame.Around Eq (fun _ _ => True) 0 [] outer outer') :
    nodeOf default frame outer = nodeOf default frame' outer' := by
  have related := nodeOf_parallel (Node.congruent_eq default) alike around
  generalize nodeOf default frame outer = tree at related ⊢
  generalize nodeOf default frame' outer' = tree' at related ⊢
  cases related with
  | none => rfl
  | some same => rw [same]

/-! ### What is pruned -/

/-- The token does not matter if what waits behind it is dropped anyway. -/
def State.Idles (state : State) (token : Token) : Prop :=
  token.isOperator ∨ state.Skips token

theorem inVain_iff (here : tokens[position]? = some token) :
    InVain default tokens position ↔ ClosesSkipped default tokens position ∨
      (stateAt default tokens position).Idles token ∧ InVain default tokens (position + 1) := by
  have idles : (∃ token ∈ tokens[position]?, token.isOperator) ∨ IsSkipped default tokens position ↔
      (stateAt default tokens position).Idles token := by
    rw [isSkipped_iff default here, State.Idles]
    simp [here]
  constructor
  · rintro ⟨close, bound, behind, closes, between⟩
    rcases Nat.eq_or_lt_of_le behind with rfl | later
    · exact .inl closes
    · exact .inr ⟨idles.1 (between position later (Nat.le_refl _)), close, bound, later, closes,
        fun position inside after => between position inside (Nat.le_of_succ_le after)⟩
  · rintro (closes | ⟨here', close, bound, behind, closes, between⟩)
    · obtain ⟨bound, _⟩ := List.getElem?_eq_some_iff.1 here
      exact ⟨position, bound, Nat.le_refl _, closes, fun _ inside after => by omega⟩
    · refine ⟨close, bound, Nat.le_of_succ_le behind, closes, fun position' inside after => ?_⟩
      rcases Nat.eq_or_lt_of_le after with rfl | later
      · exact idles.2 here'
      · exact between position' inside later

/-- Only what waits changes with an operator or a token that is skipped. -/
theorem State.Idles.step (idles : state.Idles token) (default : Conjunction) :
    (step default state token).frame.abandon.1 = state.frame.abandon.1 ∧
      (step default state token).outer = state.outer := by
  rcases idles with isOperator | skips
  · match token, isOperator with
    | .operator .and, _ => exact ⟨rfl, rfl⟩
    | .operator .or, _ => exact ⟨rfl, rfl⟩
    | .operator .not, _ =>
      by_cases limit : state.atLimit <;>
        simp [Parser.step, State.take, State.negate, limit, Frame.abandon_fst]
  · obtain ⟨frame_eq, outer_eq⟩ := skips.step default
    exact ⟨by rw [frame_eq], outer_eq⟩

/-- Behind any other token nothing waits. -/
theorem Effect.abandon_eq {outer : List Frame} {skipped : Nat}
    (effect : Effect default state token frame outer skipped) (acts : ¬state.Idles token) :
    frame.abandon.1 = frame := by
  obtain ⟨noOperator, keeps⟩ := not_or.1 acts
  cases effect with
  | key carries => rw [Frame.accept_fst, Frame.abandon_fst]
  | skipOpen limit => exact absurd ⟨limit, .inl rfl⟩ keeps
  | closeGroup noneSkipped inside =>
    cases state.frame.fold.finish default with
    | none => rfl
    | some node => rw [Frame.resolve_some, Frame.accept_fst, Frame.abandon_fst]
  | openGroup room => rfl
  | swallow waiting => rfl
  | stray noneSkipped outermost => rfl
  | _ => exact absurd rfl noOperator

/-- The state in front of the token at a position, where what waits has been dropped already if
it is in vain. -/
def ahead (default : Conjunction) (tokens : List Token) (position : Nat) : State :=
  if InVain default tokens position then
    { stateAt default tokens position with
      frame := (stateAt default tokens position).frame.abandon.1 }
  else stateAt default tokens position

theorem ahead_of_inVain (vain : InVain default tokens position) :
    ahead default tokens position = { stateAt default tokens position with
      frame := (stateAt default tokens position).frame.abandon.1 } :=
  if_pos vain

theorem ahead_of_not_inVain (counts : ¬InVain default tokens position) :
    ahead default tokens position = stateAt default tokens position :=
  if_neg counts

/-- Nothing is dropped ahead where nothing waits. -/
theorem ahead_of_rests {frame : Frame}
    (frame_eq : (stateAt default tokens position).frame = frame) (rests : frame.abandon.1 = frame) :
    ahead default tokens position = stateAt default tokens position := by
  unfold ahead
  split
  · rw [frame_eq, rests, ← frame_eq]
  · rfl

/-- A pruned token changes no frame. -/
theorem ahead_succ_of_pruned (apart : KeepsApart default tokens)
    (here : tokens[position]? = some token) (pruned : Pruned default tokens position) :
    (ahead default tokens (position + 1)).frame = (ahead default tokens position).frame ∧
      (ahead default tokens (position + 1)).outer = (ahead default tokens position).outer := by
  have next := stateAt_succ default here
  obtain ⟨bound, _⟩ := List.getElem?_eq_some_iff.1 here
  by_cases vain : InVain default tokens position
  · rw [ahead_of_inVain vain]
    -- either this is the right parenthesis at which it ends, or one more token in front of it
    rcases (inVain_iff here).1 vain with closes | ⟨idles, vainNext⟩
    · have tracks := apart.tracks (Nat.le_of_lt bound)
      obtain ⟨here', waiting⟩ := tracks.swallowed_of_closesSkipped closes
      obtain rfl : token = .closeParen := by simpa [here] using here'
      obtain ⟨frame_eq, outer_eq, _⟩ := step_swallow default waiting
      rw [← next] at frame_eq outer_eq
      rw [ahead_of_rests frame_eq rfl]
      exact ⟨frame_eq, outer_eq⟩
    · rw [ahead_of_inVain vainNext, next]
      exact idles.step default
  · have skips := (isSkipped_iff default here).1 (pruned.resolve_right vain)
    have counts : ¬InVain default tokens (position + 1) := fun vainNext =>
      vain ((inVain_iff here).2 (.inr ⟨.inr skips, vainNext⟩))
    rw [ahead_of_not_inVain vain, ahead_of_not_inVain counts, next]
    exact skips.step default

/-- A token that is not pruned acts on the state ahead as on the real one. -/
theorem ahead_succ_of_not_pruned (here : tokens[position]? = some token)
    (stays : ¬Pruned default tokens position) :
    ahead default tokens (position + 1) =
      step default (ahead default tokens position) token := by
  obtain ⟨_, counts⟩ := not_or.1 stays
  rw [ahead_of_not_inVain counts, ← stateAt_succ default here]
  -- if what follows is in vain, then this token is no operator, so that nothing waits behind it
  by_cases vainNext : InVain default tokens (position + 1)
  · have acts : ¬(stateAt default tokens position).Idles token := fun idles =>
      counts ((inVain_iff here).2 (.inr ⟨idles, vainNext⟩))
    have rests := (step_effect default _ token).abandon_eq acts
    rw [← stateAt_succ default here] at rests
    exact ahead_of_rests rfl rests
  · exact ahead_of_not_inVain vainNext

/-- What has been read of the pruned keys is what has been read of all, where what is in vain has
been dropped already. -/
theorem alike_prune (apart : KeepsApart default tokens) (bound : position ≤ tokens.length) :
    let state := run default .initial (without (Pruned default tokens) (tokens.take position))
    (ahead default tokens position).Aligned Eq (fun _ _ => True) 0 [] state ∧
      state.skipped = 0 := by
  induction position with
  | zero =>
    have start : ahead default tokens 0 = .initial := ahead_of_rests rfl rfl
    rw [start]
    exact ⟨(State.parallel_initial trivial).toAligned, rfl⟩
  | succ position ih =>
    have here := List.getElem?_eq_getElem bound
    obtain ⟨alike, noneSkipped⟩ := ih (Nat.le_of_succ_le bound)
    rw [List.take_add_one, here, Option.toList_some, without_concat,
      List.length_take_of_le (Nat.le_of_succ_le bound)]
    -- a pruned token moves neither side, and any other one moves both in the same way
    by_cases pruned : Pruned default tokens position
    · obtain ⟨frame_eq, outer_eq⟩ := ahead_succ_of_pruned apart here pruned
      rw [if_pos pruned, List.append_nil]
      refine ⟨⟨?_, ?_, trivial⟩, noneSkipped⟩
      · rw [frame_eq]
        exact alike.frame
      · rw [outer_eq]
        exact alike.outer
    · rw [if_neg pruned, run_concat, ahead_succ_of_not_pruned here pruned]
      obtain ⟨keeps, counts⟩ := not_or.1 pruned
      have keeps' : ¬(ahead default tokens position).Skips tokens[position] := by
        rw [ahead_of_not_inVain counts, ← isSkipped_iff default here]
        exact keeps
      have skips := alike.skips_iff tokens[position]
      refine ⟨alike.step (Node.congruent_eq default) (fun _ _ _ => trivial) (fun _ _ => rfl) skips
        (fun isClose => ?_) fun _ _ => rfl,
        (step_effect default _ _).skipped_eq_zero (mt skips.2 keeps') noneSkipped⟩
      rw [ahead_of_not_inVain counts, noneSkipped]
      -- a right parenthesis that is swallowed matches a skipped one, and is pruned
      by_contra waiting
      have tracks := apart.tracks (Nat.le_of_succ_le bound)
      rw [isClose] at here
      have closes := tracks.closesSkipped_of_swallowed apart ⟨here, Nat.pos_of_ne_zero waiting⟩
      exact counts ((inVain_iff here).2 (.inl closes))

/-- Suppose that no parentheses are kept and closed behind a skipped one that is still open. Then
the tree stays the same without the skipped tokens, the right parentheses that match them, and the
operators that have no operand in front of these. Only the right parentheses that match skipped
ones are swallowed, and every group that is kept ends at its own. -/
theorem parse_prune (apart : KeepsApart default tokens) :
    (parse default (prune default tokens)).node = (parse default tokens).node ∧
      ∀ close, (Swallowed default tokens close ↔ ClosesSkipped default tokens close) ∧
        ∀ left ∈ opening? tokens close, ¬IsSkipped default tokens left →
          (stateAt default tokens close).outer =
            (stateAt default tokens left).frame :: (stateAt default tokens left).outer := by
  refine ⟨?_, fun close => ⟨keepsApart_iff.1 apart close, fun left matched kept =>
    apart.outer_eq matched kept⟩⟩
  have counts : ¬InVain default tokens tokens.length := by
    rintro ⟨close, bound, behind, _⟩
    omega
  obtain ⟨alike, _⟩ := alike_prune apart (Nat.le_refl _)
  rw [ahead_of_not_inVain counts, stateAt, List.take_length, ← prune] at alike
  rw [parse_node, parse_node]
  exact (nodeOf_eq_of_alike alike.frame alike.outer).symm

/-- The skipped parenthesis stands behind the last negation that is kept, and its right one does
not end the group around it. -/
theorem parse_prune_group :
    let tokens := Token.openParen :: List.replicate 127 (.operator .not) ++
      [.openParen, .term "a", .operator .or, .closeParen, .term "b", .closeParen, .term "c"]
    KeepsApart .and tokens ∧
      (parse .and (prune .and tokens)).node = (parse .and tokens).node ∧
      [128, 129, 130, 131, 132, 133].filter (Pruned .and tokens) = [128, 130, 131] := by
  intro tokens
  have apart : KeepsApart .and tokens := by decide +kernel
  exact ⟨apart, (parse_prune apart).1, by decide +kernel⟩

/-- The operators in front of a swallowed parenthesis make a difference: they combine nothing,
although an operand follows. -/
theorem parse_without_skipped_ne :
    let tokens := List.replicate 128 (.operator .not) ++
      [Token.openParen, .term "a", .operator .or, .closeParen, .term "b"]
    (∀ close < tokens.length, ∀ left ∈ opening? tokens close,
        ∃ key < close, left < key ∧ ∃ token ∈ tokens[key]?, token.key?.isSome) ∧
      (parse .and (without (fun position => IsSkipped .and tokens position ∨
        ClosesSkipped .and tokens position) tokens)).node ≠ (parse .and tokens).node := by
  decide +kernel

end Parser

end SearchKeys
