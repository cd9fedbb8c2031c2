/-
# What is lost at the limit

Where nothing may nest any deeper, the parser skips a `NOT`, and it skips a parenthesis even
if negations are waiting in front of it, so that they end up at the first key behind it. Both
are losses, and no later token makes up for them. To see this, every negation of a tree is
given a weight: one if a single key is negated, and two if there are several. A token pays
for the weight that it can bring into the tree, and what is paid for a lost one is wasted.

## Main definitions

* `Node.charges`, `Node.weight`: the weights of the negations of a tree, and their sum.
* `Parser.cost`: what some tokens pay for, given the number of `NOT`s right in front of them.
* `Parser.Loses`: some token is lost.

## Main results

* `Parser.weight_parse_lt`: if a token is lost, the returned tree is lighter than what was paid.
* `Node.cost_tokens`: a written tree pays for its own weight.
-/

import SearchKeys.Proofs.Query.Keys
import SearchKeys.Proofs.Query.Reading
import Mathlib.Algebra.GroupWithZero.Nat

namespace SearchKeys

namespace Node

variable {conjunction : Conjunction} {children : List Node}

/-- The weights of the negations of a tree. -/
def charges : Node → List Nat
  | keys _ => []
  | group _ negated children =>
    (if negated then [min 2 (children.flatMap leaves).length] else []) ++ children.flatMap charges

theorem gathers_charges : Gathers charges := by
  intro conjunction children
  simp [charges]

/-- The weight of all negations of a tree. -/
def weight (node : Node) : Nat :=
  node.charges.sum

@[simp] theorem weight_keys (text : String) : (keys text).weight = 0 := by
  simp [weight, charges]

@[simp] theorem weight_not (child : Node) :
    child.not.weight = min 2 child.leaves.length + child.weight := by
  simp [weight, not, charges]

@[simp] theorem weight_group :
    (group conjunction false children).weight = (children.map weight).sum := by
  rw [weight, gathers_charges]
  induction children with
  | nil => rfl
  | cons child children ih =>
    rw [List.flatMap_cons, List.sum_append, ih, List.map_cons, List.sum_cons, weight]

/-- Whatever is negated, each negation weighs two at most. -/
theorem weight_iterate_not_le (count : Nat) (node : Node) :
    (Node.not^[count] node).weight ≤ 2 * count + node.weight := by
  induction count generalizing node with
  | zero => simp
  | succ count ih =>
    have inner := ih node.not
    rw [weight_not] at inner
    rw [Function.iterate_succ_apply]
    omega

/-- Each negation of a single key weighs one. -/
theorem weight_iterate_not_keys (count : Nat) (text : String) :
    (Node.not^[count] (keys text)).weight = count := by
  have oneKey (count : Nat) : (Node.not^[count] (keys text)).leaves = [text] := by
    induction count with
    | zero => simp [leaves]
    | succ count ih => rw [Function.iterate_succ_apply', leaves_not, ih]
  induction count with
  | zero => simp
  | succ count ih =>
    rw [Function.iterate_succ_apply', weight_not, oneKey, ih]
    simp [Nat.add_comm]

end Node

namespace Fold

variable {default : Conjunction} {link : Option Conjunction} {node : Node} {fold : Fold}

/-- The weight of everything folded so far. -/
def weight (fold : Fold) : Nat :=
  (fold.gather Node.charges).sum

@[simp] theorem weight_empty : empty.weight = 0 := rfl

@[simp] theorem weight_finish : (fold.finish default).elim 0 Node.weight = fold.weight := by
  rw [weight, ← gather_finish Node.gathers_charges default]
  cases fold.finish default with
  | none => rfl
  | some node => rfl

@[simp] theorem weight_attach :
    (fold.attach default link node).weight = fold.weight + node.weight := by
  rw [weight, gather_attach Node.gathers_charges, List.sum_append]
  rfl

end Fold

namespace Parser

variable {default : Conjunction} {state : State} {frame : Frame} {outer : List Frame}
  {pending : Nat} {token : Token} {tokens rest : List Token}

/-! ### Paying for weight -/

/-- What is paid by tokens with `pending` `NOT`s right in front of them: one for each `NOT`, and
once more at a left parenthesis for each `NOT` right in front of it. -/
def cost (pending : Nat) : List Token → Nat
  | [] => 0
  | .operator .not :: tokens => cost (pending + 1) tokens + 1
  | .openParen :: tokens => cost 0 tokens + pending
  | _ :: tokens => cost 0 tokens

/-- What a single token pays. -/
def price (pending : Nat) : Token → Nat
  | .operator .not => 1
  | .openParen => pending
  | _ => 0

/-- The number of `NOT`s right in front of the next token. -/
def pendingBehind (pending : Nat) : Token → Nat
  | .operator .not => pending + 1
  | _ => 0

theorem cost_cons (pending : Nat) (token : Token) (tokens : List Token) :
    cost pending (token :: tokens) =
      cost (pendingBehind pending token) tokens + price pending token := by
  match token with
  | .term _ => rfl
  | .phrase _ => rfl
  | .operator .and => rfl
  | .operator .or => rfl
  | .operator .not => rfl
  | .openParen => rfl
  | .closeParen => rfl

/-- The weight of the open expressions, with the negations that wait in them. Those in front of
an open parenthesis may come to stand in front of several keys. -/
def weightOf (frame : Frame) (outer : List Frame) : Nat :=
  frame.fold.weight + frame.negations.length +
    (outer.map fun around => around.fold.weight + 2 * around.negations.length).sum

theorem Frame.weight_resolve_le (default : Conjunction) (frame : Frame)
    (operand : Option Node) :
    (frame.resolve default operand).1.fold.weight ≤
      frame.fold.weight + 2 * frame.negations.length + operand.elim 0 Node.weight := by
  cases operand with
  | none => simp [Frame.abandon_fst]
  | some node =>
    have negated := Node.weight_iterate_not_le frame.negations.length node
    rw [Frame.resolve_some, Frame.accept_fst, Fold.weight_attach, Frame.negated,
      Option.elim_some]
    omega

theorem Frame.resolve_negations (operand : Option Node) :
    (frame.resolve default operand).1.negations = [] := by
  rw [resolve_fst]

/-- No more negations wait than there are `NOT`s right in front of the next token, unless this
is at the limit. -/
def Paid (pending : Nat) (frame : Frame) : Prop :=
  frame.negations.length ≤ pending ∨ maxDepth ≤ frame.operandDepth

/-- A token does not bring in more weight than it pays for. -/
theorem Effect.weight_le {skipped : Nat} (paid : Paid pending state.frame)
    (effect : Effect default state token frame outer skipped) :
    weightOf frame outer ≤ weightOf state.frame state.outer + price pending token := by
  cases effect with
  | @key _ text carries =>
    -- the waiting negations are in front of a single key
    rw [Frame.accept_fst, weightOf, weightOf, Fold.weight_attach, Frame.negated,
      Node.weight_iterate_not_keys]
    simp only [List.length_nil]
    omega
  | skipNot limit => omega
  | negate room => simp [weightOf, price]; omega
  | join conjunction => simp [weightOf]; omega
  | skipOpen limit => omega
  | openGroup room =>
    -- from here on the waiting negations count twice
    have few : state.frame.negations.length ≤ pending :=
      paid.resolve_right fun limit => room (State.atLimit_iff.2 limit)
    simp only [weightOf, Frame.fresh, price, Fold.weight_empty, List.map_cons, List.sum_cons,
      List.length_nil]
    omega
  | swallow waiting => simp [weightOf, Frame.abandon_fst]; omega
  | stray noneSkipped outermost => simp [weightOf, Frame.abandon_fst]; omega
  | @closeGroup around outer noneSkipped inside =>
    -- the group takes the negations in front of it, however many keys it has
    have resolved := Frame.weight_resolve_le default around (state.frame.fold.finish default)
    rw [Fold.weight_finish] at resolved
    rw [weightOf, weightOf, inside, Frame.resolve_negations]
    simp only [List.length_nil, List.map_cons, List.sum_cons]
    omega

theorem Effect.paid {skipped : Nat} (paid : Paid pending state.frame)
    (effect : Effect default state token frame outer skipped) :
    Paid (pendingBehind pending token) frame := by
  cases effect with
  | key carries => simp [Paid, Frame.accept_fst]
  | skipNot limit => exact .inr (State.atLimit_iff.1 limit)
  | negate room =>
    have few : state.frame.negations.length ≤ pending :=
      paid.resolve_right fun limit => room (State.atLimit_iff.2 limit)
    exact .inl (by simpa [pendingBehind] using few)
  | join conjunction => simp [Paid]
  | skipOpen limit => exact .inr (State.atLimit_iff.1 limit)
  | openGroup room => simp [Paid, Frame.fresh]
  | swallow waiting => simp [Paid, Frame.abandon_fst]
  | stray noneSkipped outermost => simp [Paid, Frame.abandon_fst]
  | closeGroup noneSkipped inside => exact .inl (by simp [Frame.resolve_negations])

theorem weightOf_run_le (default : Conjunction) (tokens : List Token)
    (paid : Paid pending state.frame) :
    weightOf (run default state tokens).frame (run default state tokens).outer ≤
      weightOf state.frame state.outer + cost pending tokens := by
  induction tokens generalizing state pending with
  | nil => exact Nat.le_add_right ..
  | cons token tokens ih =>
    have effect := step_effect default state token
    have here := effect.weight_le paid
    have behind := ih (effect.paid paid)
    rw [run_cons, cost_cons]
    omega

theorem weight_nodeOf_le (default : Conjunction) (frame : Frame) (outer : List Frame) :
    (nodeOf default frame outer).elim 0 Node.weight ≤ weightOf frame outer := by
  induction outer generalizing frame with
  | nil => simp [nodeOf, weightOf]
  | cons around outer ih =>
    have resolved := Frame.weight_resolve_le default around (frame.fold.finish default)
    have behind := ih (around.resolve default (frame.fold.finish default)).1
    rw [Fold.weight_finish] at resolved
    rw [weightOf, Frame.resolve_negations] at behind
    rw [nodeOf, weightOf]
    simp only [List.length_nil, List.map_cons, List.sum_cons] at behind ⊢
    omega

/-! ### Losses -/

/-- At the limit a `NOT` is lost, and so is a left parenthesis if negations wait in front of
it. -/
def LosesToken (state : State) (token : Token) : Prop :=
  maxDepth ≤ state.frame.operandDepth ∧
    (token = .operator .not ∨ token = .openParen ∧ state.frame.negations ≠ [])

/-- One of the tokens is lost. -/
def Loses (default : Conjunction) (state : State) : List Token → Prop
  | [] => False
  | token :: tokens => LosesToken state token ∨ Loses default (step default state token) tokens

theorem loses_append :
    Loses default state (tokens ++ rest) ↔
      Loses default state tokens ∨ Loses default (run default state tokens) rest := by
  induction tokens generalizing state with
  | nil => simp [Loses]
  | cons token tokens ih => rw [List.cons_append, Loses, Loses, ih, or_assoc, run_cons]

theorem step_lost (default : Conjunction) (lost : LosesToken state token) :
    (step default state token).frame = state.frame ∧
      (step default state token).outer = state.outer := by
  obtain ⟨limit, token_eq⟩ := lost
  have atLimit : state.atLimit = true := State.atLimit_iff.2 limit
  rcases token_eq with rfl | ⟨rfl, _⟩ <;>
    simp [step, State.take, State.negate, State.openGroup, atLimit]

/-- A lost token pays for more than it brings in. -/
theorem price_pos_of_lost (few : state.frame.negations.length ≤ pending)
    (lost : LosesToken state token) : 0 < price pending token := by
  obtain ⟨_, rfl | ⟨rfl, waiting⟩⟩ := lost
  · exact Nat.one_pos
  · exact (List.length_pos_iff.2 waiting).trans_le few

/-- As long as nothing is lost, the waiting negations are those right in front of the next
token. -/
theorem Effect.few {skipped : Nat} (few : state.frame.negations.length ≤ pending)
    (kept : ¬LosesToken state token) (effect : Effect default state token frame outer skipped) :
    frame.negations.length ≤ pendingBehind pending token := by
  cases effect with
  | key carries => simp [Frame.accept_fst]
  | skipNot limit => exact absurd ⟨State.atLimit_iff.1 limit, .inl rfl⟩ kept
  | negate room => simpa [pendingBehind] using few
  | join conjunction => simp
  | skipOpen limit =>
    have noneWaiting : state.frame.negations = [] := by
      by_contra waiting
      exact kept ⟨State.atLimit_iff.1 limit, .inr ⟨rfl, waiting⟩⟩
    simp [noneWaiting]
  | openGroup room => simp [Frame.fresh]
  | swallow waiting => simp [Frame.abandon_fst]
  | stray noneSkipped outermost => simp [Frame.abandon_fst]
  | closeGroup noneSkipped inside => simp [Frame.resolve_negations]

/-- If a token is lost, the open expressions weigh less than what was paid. -/
theorem weightOf_run_lt (few : state.frame.negations.length ≤ pending)
    (loses : Loses default state tokens) :
    weightOf (run default state tokens).frame (run default state tokens).outer <
      weightOf state.frame state.outer + cost pending tokens := by
  induction tokens generalizing state pending with
  | nil => exact loses.elim
  | cons token tokens ih =>
    have effect := step_effect default state token
    rw [run_cons, cost_cons]
    by_cases lost : LosesToken state token
    · -- nothing is brought in for what this token pays, and the rest brings in no more than paid
      have behind := weightOf_run_le default tokens (effect.paid (.inl few))
      have wasted := price_pos_of_lost few lost
      have stays := step_lost default lost
      rw [stays.1, stays.2] at behind
      omega
    · have here := effect.weight_le (.inl few)
      have behind := ih (effect.few few lost) (loses.resolve_left lost)
      omega

/-- If a token is lost, the returned tree is lighter than what was paid. -/
theorem weight_parse_lt {node : Node} (loses : Loses default .initial tokens)
    (parsed : (parse default tokens).node = some node) : node.weight < cost 0 tokens := by
  have noneWaiting : State.initial.frame.negations.length ≤ 0 := Nat.le_refl 0
  have open' := weightOf_run_lt noneWaiting loses
  have closed := weight_nodeOf_le default (run default .initial tokens).frame
    (run default .initial tokens).outer
  rw [← parse_node, parsed, Option.elim_some] at closed
  have nothing : weightOf State.initial.frame State.initial.outer = 0 := rfl
  omega

end Parser

/-! ### Written trees -/

namespace Node

open SearchKeys.Parser (cost)

variable {node : Node}

/-- A group has several keys. -/
theorem two_le_length_leaves {conjunction : Conjunction} {children : List Node}
    (enough : 2 ≤ children.length) (inner : ∀ child ∈ children, child.WellFormed 2) :
    2 ≤ (group conjunction false children).leaves.length := by
  obtain ⟨first, second, rest, rfl⟩ := exists_cons_cons enough
  have positive (child : Node) (member : child ∈ first :: second :: rest) :
      0 < child.leaves.length :=
    List.length_pos_iff.2 ((inner child member).mono (by decide)).leaves_ne_nil
  have one := positive first (.head _)
  have other := positive second (.tail _ (.head _))
  rw [leaves]
  simp only [List.flatMap_cons, List.length_append]
  omega

/-- A written tree pays for its own weight, and if it has several keys, also for the second half
of the weight of the negations right in front of it. -/
def PaysForItself (node : Node) : Prop :=
  ∀ pending rest, cost pending (node.tokens true ++ rest) =
    cost 0 rest + node.weight + if 2 ≤ node.leaves.length then pending else 0

theorem cost_tokensBehind (conjunction : Conjunction) {members : List Node}
    (pays : ∀ member ∈ members, member.PaysForItself) (rest : List Token) :
    cost 0 (tokensBehind conjunction members ++ rest) =
      cost 0 rest + (members.map weight).sum := by
  induction members with
  | nil => simp [tokensBehind]
  | cons member members ih =>
    obtain ⟨first, others⟩ := List.forall_mem_cons.1 pays
    have joined (tokens : List Token) :
        cost 0 (.operator (.ofConjunction conjunction) :: tokens) = cost 0 tokens := by
      cases conjunction <;> rfl
    rw [tokensBehind, List.flatMap_cons, List.cons_append, List.cons_append, joined,
      List.append_assoc, first, ← tokensBehind, ih others, List.map_cons, List.sum_cons, ite_self]
    omega

theorem paysForItself (wellFormed : node.WellFormed 2) : node.PaysForItself := by
  induction wellFormed with
  | keys text =>
    -- a key behind negations pays nothing, they have paid for themselves
    intro pending rest
    have single : ¬2 ≤ (keys text).leaves.length := by simp [leaves]
    rw [if_neg single, tokens]
    unfold Token.ofKey
    split <;> simp [cost]
  | @not child inner ih =>
    -- the negation pays one here, and another one at a parenthesis if there are several keys
    intro pending rest
    have positive : 0 < child.leaves.length :=
      List.length_pos_iff.2 (inner.mono (by decide)).leaves_ne_nil
    rw [tokens_not, List.cons_append, cost, ih, weight_not, leaves_not]
    split <;> omega
  | @group conjunction children enough inner ih =>
    intro pending rest
    obtain ⟨first, second, others, rfl⟩ := exists_cons_cons enough
    obtain ⟨payFirst, payOthers⟩ := List.forall_mem_cons.1 ih
    have closed : cost 0 ([.closeParen] ++ rest) = cost 0 rest := rfl
    rw [if_pos (two_le_length_leaves (by simp) inner), (tokens_group ..).1, List.cons_append,
      List.cons_append, cost, List.append_assoc, List.append_assoc, payFirst,
      cost_tokensBehind conjunction payOthers, closed, weight_group, ite_self]
    simp only [List.map_cons, List.sum_cons]
    omega

/-- The tokens of a written query pay for the weight of the query and for nothing else. -/
theorem cost_tokens (wellFormed : node.WellFormed 2) (nested : Bool) :
    cost 0 (node.tokens nested) = node.weight := by
  have asNested := paysForItself wellFormed 0 []
  simp only [List.append_nil, ite_self, cost] at asNested
  cases wellFormed with
  | keys text =>
    cases nested
    · simpa [tokens] using asNested
    · simpa using asNested
  | @not child inner =>
    rw [tokens_not] at asNested ⊢
    simpa using asNested
  | @group conjunction children enough inner =>
    cases nested with
    | true => simpa using asNested
    | false =>
      obtain ⟨first, second, others, rfl⟩ := exists_cons_cons enough
      have behind := cost_tokensBehind conjunction
        (fun child member => paysForItself (inner child (.tail first member))) []
      rw [List.append_nil] at behind
      rw [(tokens_group ..).2, paysForItself (inner first (.head _)), behind, weight_group,
        ite_self, cost]
      simp only [List.map_cons, List.sum_cons]
      omega

end Node

end SearchKeys
