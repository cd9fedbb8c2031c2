/-
# Negations around a key

A `NOT` negates what follows its run of `NOT`s: a key, or everything in the parentheses that
open there. In the tree, these are the negations around the leaf of a key. None is lost,
whatever else is wrong with the keys, and none reaches further.

## Main definitions

* `Node.polarities`: the keys of a node, each with the number of negations around it.
* `Parser.Governs`: a `NOT` negates the key at a position.
* `Parser.governed`: the keys among tokens, each with the number of `NOT`s that negate it.

## Main results

* `Parser.governors_eq_sum`: the `NOT`s that negate a key, by the places that they stand in front of.
* `Parser.polarities_parse`: the negations around a leaf are those that govern its key.
-/

import SearchKeys.Proofs.Query.Brackets
import SearchKeys.Proofs.Query.Built
import SearchKeys.Proofs.Query.Record
import Mathlib.Algebra.GroupWithZero.Nat
import Mathlib.Data.List.Nodup

namespace SearchKeys

/-! ### Leaves -/

/-- The keys with some more negations around each of them. -/
def raise (count : Nat) (keys : List (String × Nat)) : List (String × Nat) :=
  keys.map (Prod.map id (· + count))

theorem raise_zero (keys : List (String × Nat)) : raise 0 keys = keys :=
  List.map_id keys

theorem raise_append (count : Nat) (first second : List (String × Nat)) :
    raise count (first ++ second) = raise count first ++ raise count second :=
  List.map_append

theorem raise_raise (inner count : Nat) (keys : List (String × Nat)) :
    raise count (raise inner keys) = raise (inner + count) keys := by
  simp [raise, Function.comp_def, Prod.map, Nat.add_assoc]

namespace Node

/-- The keys of a node in order, each with the number of negations around it. -/
def polarities : Node → List (String × Nat)
  | keys text => [(text, 0)]
  | group _ negated children => raise negated.toNat (children.flatMap polarities)

theorem gathers_polarities : Gathers polarities := by
  intro conjunction children
  rw [polarities, Bool.toNat_false, raise_zero]

@[simp] theorem polarities_not (child : Node) :
    child.not.polarities = raise 1 child.polarities := by
  simp [not, polarities]

end Node

namespace Parser

variable {default : Conjunction} {state : State} {frame around : Frame} {outer : List Frame}
  {tokens : List Token} {token : Token} {negation next key : Nat}

namespace Frame

theorem polarities_negated (operand : Node) :
    (frame.negated operand).polarities = raise frame.negations.length operand.polarities := by
  unfold negated
  induction frame.negations.length with
  | zero => exact (raise_zero _).symm
  | succ count ih =>
    rw [Function.iterate_succ_apply', Node.polarities_not, ih, raise_raise]

/-- The keys that have been folded. -/
def polarities (frame : Frame) : List (String × Nat) :=
  frame.fold.gather Node.polarities

theorem polarities_resolve (default : Conjunction) (frame : Frame) (operand : Option Node) :
    (frame.resolve default operand).1.polarities =
      frame.polarities ++ raise frame.negations.length (operand.elim [] Node.polarities) := by
  cases operand with
  | none => simp [polarities, abandon_fst, raise]
  | some node =>
    rw [resolve_some, accept_fst, polarities, Fold.gather_attach Node.gathers_polarities,
      polarities_negated]
    rfl

end Frame

/-- The number of negations that wait in the frames. -/
def pending (frames : List Frame) : Nat :=
  (frames.map (·.negations.length)).sum

/-- The keys of all open expressions, outermost first, each with the negations that it will have
around it in the tree. -/
def polaritiesOf (frame : Frame) : List Frame → List (String × Nat)
  | [] => frame.polarities
  | around :: outer =>
    polaritiesOf around outer ++ raise (pending (around :: outer)) frame.polarities

/-- An operand of the innermost frame. -/
theorem polaritiesOf_resolve (default : Conjunction) (frame : Frame) (outer : List Frame)
    (operand : Option Node) :
    polaritiesOf (frame.resolve default operand).1 outer = polaritiesOf frame outer ++
      raise (pending (frame :: outer)) (operand.elim [] Node.polarities) := by
  cases outer with
  | nil => simp [polaritiesOf, Frame.polarities_resolve, pending]
  | cons around outer =>
    simp [polaritiesOf, Frame.polarities_resolve, raise_append, raise_raise, pending]

/-- Closing a group changes nothing. -/
theorem polaritiesOf_closeGroup (default : Conjunction) :
    polaritiesOf (around.resolve default (frame.fold.finish default)).1 outer =
      polaritiesOf frame (around :: outer) := by
  rw [polaritiesOf_resolve, Fold.gather_finish Node.gathers_polarities]
  rfl

/-- At the end, all groups are closed. -/
theorem polarities_nodeOf :
    (nodeOf default frame outer).elim [] Node.polarities = polaritiesOf frame outer := by
  induction outer generalizing frame with
  | nil => exact Fold.gather_finish Node.gathers_polarities ..
  | cons around outer ih => rw [nodeOf, ih, polaritiesOf_closeGroup]

/-- A step adds the key of its token, with all negations that wait. -/
theorem Effect.polarities {skipped : Nat}
    (effect : Effect default state token frame outer skipped) :
    polaritiesOf frame outer = polaritiesOf state.frame state.outer ++
      (token.key?.map fun text => (text, pending (state.frame :: state.outer))).toList := by
  -- what waits in the innermost frame concerns none of the keys so far
  have resting (depth : Nat) (fold : Fold) (joiner : Option (Conjunction × Nat))
      (negations : List Nat) (same : fold = state.frame.fold) :
      polaritiesOf ⟨depth, fold, joiner, negations⟩ state.outer =
        polaritiesOf state.frame state.outer := by
    cases state.outer <;> simp [polaritiesOf, Frame.polarities, same]
  cases effect with
  | @key _ text carries =>
    have added := polaritiesOf_resolve default state.frame state.outer (some (.keys text))
    rw [← Frame.resolve_some, added, carries]
    simp [Node.polarities, raise]
  | openGroup room =>
    simp [polaritiesOf, Frame.polarities, Frame.fresh, Fold.empty, Fold.gather, raise, Token.key?]
  | closeGroup noneSkipped inside => simp [polaritiesOf_closeGroup, inside, Token.key?]
  | negate room => simp [resting, Token.key?]
  | _ => simp [resting, Frame.abandon_fst, Token.key?]

/-! ### Which negations govern a key -/

/-- The tokens from the negation on are `NOT`s, up to the place behind them. -/
def Leads (tokens : List Token) (negation next : Nat) : Prop :=
  negation < next ∧
    ∀ position < next, negation ≤ position → tokens[position]? = some (.operator .not)

instance : Decidable (Leads tokens negation next) :=
  inferInstanceAs (Decidable (_ ∧ _))

/-- The `NOT` at a position governs the key at another: behind the run of `NOT`s that it belongs
to comes the key itself, or a left parenthesis that is still open in front of the key. -/
def Governs (tokens : List Token) (negation key : Nat) : Prop :=
  ∃ next ∈ key :: opened (tokens.take key), Leads tokens negation next

instance : Decidable (Governs tokens negation key) :=
  inferInstanceAs (Decidable (∃ next ∈ _, _))

/-- The number of `NOT`s that govern the key at a position; they all stand in front of it. -/
def governors (tokens : List Token) (key : Nat) : Nat :=
  (List.range key).countP (Governs tokens · key)

/-- The keys among the tokens, each with the number of `NOT`s that govern it. -/
def governed (tokens : List Token) : List (String × Nat) :=
  tokens.zipIdx.filterMap fun token =>
    token.1.key?.map fun text => (text, governors tokens token.2)

/-- The number of `NOT`s directly in front of a position. -/
def negationsBefore (tokens : List Token) : Nat → Nat
  | 0 => 0
  | next + 1 =>
    if tokens[next]? = some (.operator .not) then negationsBefore tokens next + 1 else 0

theorem leads_succ : Leads tokens negation (next + 1) ↔
    tokens[next]? = some (.operator .not) ∧ (negation = next ∨ Leads tokens negation next) := by
  constructor
  · rintro ⟨bound, run⟩
    refine ⟨run next (Nat.lt_succ_self _) (Nat.le_of_lt_succ bound), ?_⟩
    rcases Nat.lt_succ_iff_lt_or_eq.1 bound with earlier | last
    · exact .inr ⟨earlier, fun position inside => run position (Nat.lt_succ_of_lt inside)⟩
    · exact .inl last
  · rintro ⟨last, rfl | ⟨bound, run⟩⟩
    · refine ⟨Nat.lt_succ_self _, fun position inside behind => ?_⟩
      obtain rfl : position = negation := by omega
      exact last
    · refine ⟨Nat.lt_succ_of_lt bound, fun position inside behind => ?_⟩
      rcases Nat.lt_succ_iff_lt_or_eq.1 inside with earlier | rfl
      · exact run position earlier behind
      · exact last

/-- The items that meet one of two conditions that exclude each other. -/
theorem countP_or {α : Type} {first second : α → Prop} [DecidablePred first]
    [DecidablePred second] (apart : ∀ item, first item → ¬second item) (items : List α) :
    items.countP (fun item => first item ∨ second item) =
      items.countP first + items.countP second := by
  induction items with
  | nil => rfl
  | cons item items ih =>
    have excluded := apart item
    rw [List.countP_cons, List.countP_cons, List.countP_cons, ih]
    by_cases isFirst : first item
    · simp [isFirst, excluded isFirst]
      omega
    · simp [isFirst]
      omega

theorem countP_leads {bound : Nat} (inside : next ≤ bound) :
    (List.range bound).countP (Leads tokens · next) = negationsBefore tokens next := by
  induction next with
  | zero => simp [Leads, negationsBefore]
  | succ next ih =>
    rw [negationsBefore]
    split
    · next last =>
      have one : (List.range bound).countP (fun negation => negation = next) = 1 :=
        List.count_eq_one_of_mem List.nodup_range (List.mem_range.2 inside)
      have apart (negation : Nat) (same : negation = next) : ¬Leads tokens negation next := by
        rintro ⟨earlier, _⟩
        omega
      simp only [leads_succ, last, true_and]
      rw [countP_or apart, one, ih (Nat.le_of_succ_le inside), Nat.add_comm]
    · next other => simp [leads_succ, other]

/-- Places that no `NOT` stands at are led to by different ones. -/
theorem countP_exists_leads {bound : Nat} {places : List Nat}
    (inside : ∀ next ∈ places, next ≤ bound)
    (apart : places.Pairwise fun later next =>
      next < later ∧ tokens[next]? ≠ some (.operator .not)) :
    (List.range bound).countP (fun negation => ∃ next ∈ places, Leads tokens negation next) =
      (places.map (negationsBefore tokens)).sum := by
  induction places with
  | nil => simp
  | cons place places ih =>
    -- a run up to one place would go over another one in front of it, where no `NOT` stands
    have excluded (negation : Nat) (leads : Leads tokens negation place) :
        ¬∃ next ∈ places, Leads tokens negation next := by
      rintro ⟨next, member, bound', _⟩
      obtain ⟨earlier, other⟩ := List.rel_of_pairwise_cons apart member
      exact other (leads.2 next earlier (Nat.le_of_lt bound'))
    simp only [List.mem_cons, exists_eq_or_imp]
    rw [countP_or excluded, countP_leads (inside place (.head _)),
      ih (fun next member => inside next (.tail _ member)) apart.of_cons]
    rfl

/-- The `NOT`s that govern a key, by the places that they stand in front of. -/
theorem governors_eq_sum (key : Nat) (tokens : List Token) : governors tokens key =
    ((key :: opened (tokens.take key)).map (negationsBefore tokens)).sum := by
  have earlier {next : Nat} (member : next ∈ opened (tokens.take key)) : next < key :=
    (lt_of_mem_opened member).trans_le (List.length_take_le ..)
  have noNegation {next : Nat} (member : next ∈ opened (tokens.take key)) :
      tokens[next]? ≠ some (.operator .not) := by
    have isOpen := getElem?_of_mem_opened member
    rw [List.getElem?_take_of_lt (earlier member)] at isOpen
    simp [isOpen]
  refine countP_exists_leads ?_ (.cons ?_ ?_)
  · intro next member
    rcases List.mem_cons.1 member with rfl | member
    · exact le_rfl
    · exact (earlier member).le
  · exact fun next member => ⟨earlier member, noNegation member⟩
  · exact (pairwise_opened _).imp_of_mem fun _ member inside => ⟨inside, noNegation member⟩

/-! ### Runs -/

theorem negationsBefore_append (first second : List Token) (inside : next ≤ first.length) :
    negationsBefore (first ++ second) next = negationsBefore first next := by
  induction next with
  | zero => rfl
  | succ next ih =>
    rw [negationsBefore, negationsBefore, List.getElem?_append_left inside,
      ih (Nat.le_of_succ_le inside)]

theorem governors_append (first second : List Token) (inside : key ≤ first.length) :
    governors (first ++ second) key = governors first key := by
  rw [governors_eq_sum, governors_eq_sum, List.take_append_of_le_length inside]
  congr 1
  refine List.map_congr_left fun next member => negationsBefore_append _ _ ?_
  rcases List.mem_cons.1 member with rfl | member
  · exact inside
  · exact (lt_of_mem_opened member).le.trans ((List.length_take_le ..).trans inside)

/-- A key is governed by `NOT`s in front of it only. -/
theorem governed_concat (tokens : List Token) (token : Token) :
    governed (tokens ++ [token]) = governed tokens ++
      (token.key?.map fun text => (text, governors tokens tokens.length)).toList := by
  have same : tokens.zipIdx.filterMap (fun key => key.1.key?.map fun text =>
      (text, governors (tokens ++ [token]) key.2)) = governed tokens := by
    refine List.filterMap_congr fun key member => ?_
    have inside := List.snd_lt_of_mem_zipIdx member
    rw [governors_append _ _ (by omega)]
  have last := governors_append tokens [token] le_rfl
  rw [governed, List.zipIdx_append, List.filterMap_append, same]
  cases key : token.key? <;> simp [key, last]

theorem negationsBefore_concat (tokens : List Token) (token : Token) :
    negationsBefore (tokens ++ [token]) (tokens ++ [token]).length =
      if token = .operator .not then negationsBefore tokens tokens.length + 1 else 0 := by
  rw [List.length_append, List.length_singleton, negationsBefore,
    negationsBefore_append _ _ le_rfl]
  simp

/-- Up to here, the open frames are the open parentheses, the negations that wait in each of them
are those directly in front of the next one, and the keys have the negations that govern them. -/
structure State.Polar (tokens : List Token) (state : State) : Prop where
  negations_eq : state.frame.negations.length = negationsBefore tokens tokens.length
  outer_eq : state.outer.map (·.negations.length) = (opened tokens).map (negationsBefore tokens)
  polarities_eq : polaritiesOf state.frame state.outer = governed tokens

theorem State.Polar.pending_eq (polar : state.Polar tokens) :
    pending (state.frame :: state.outer) = governors tokens tokens.length := by
  rw [governors_eq_sum, List.take_length, pending, List.map_cons, List.map_cons, polar.outer_eq,
    polar.negations_eq]

/-- Only a `NOT` waits behind its own step. -/
theorem Effect.negations_length {skipped : Nat}
    (effect : Effect default state token frame outer skipped) (keeps : ¬state.Skips token) :
    frame.negations.length =
      if token = .operator .not then state.frame.negations.length + 1 else 0 := by
  cases effect with
  | @key _ text carries =>
    have noNegation : token ≠ .operator .not := by rintro rfl; cases carries
    rw [Frame.accept_fst, if_neg noNegation]
    rfl
  | skipNot limit => exact absurd ⟨limit, .inr rfl⟩ keeps
  | skipOpen limit => exact absurd ⟨limit, .inl rfl⟩ keeps
  | join conjunction => cases conjunction <;> simp [Operator.ofConjunction]
  | @closeGroup around outer noneSkipped inside =>
    cases finished : state.frame.fold.finish default <;>
      simp [Frame.abandon_fst, Frame.accept_fst]
  | _ => simp [Frame.abandon_fst, Frame.fresh]

/-- The frames around the innermost one are opened and closed by the parentheses. -/
theorem Effect.outer_eq {skipped : Nat} (effect : Effect default state token frame outer skipped)
    (noneSkipped : state.skipped = 0) (keeps : ¬state.Skips token) :
    outer = token.bracket state.frame state.outer := by
  cases effect with
  | key carries => rw [Token.bracket_of_key carries]
  | skipNot limit => exact absurd ⟨limit, .inr rfl⟩ keeps
  | skipOpen limit => exact absurd ⟨limit, .inl rfl⟩ keeps
  | swallow waiting => omega
  | stray _ outermost => simp [outermost, Token.bracket]
  | closeGroup _ inside => simp [inside, Token.bracket]
  | _ => rfl

theorem State.Polar.step (polar : state.Polar tokens) (default : Conjunction)
    (noneSkipped : state.skipped = 0) (keeps : ¬state.Skips token) :
    (step default state token).Polar (tokens ++ [token]) := by
  have effect := step_effect default state token
  refine ⟨?_, ?_, ?_⟩
  · rw [negationsBefore_concat, effect.negations_length keeps, polar.negations_eq]
  · have same : (opened tokens).map (negationsBefore (tokens ++ [token])) =
        state.outer.map (·.negations.length) := by
      rw [polar.outer_eq]
      exact List.map_congr_left fun next member =>
        negationsBefore_append _ _ (lt_of_mem_opened member).le
    have last : negationsBefore (tokens ++ [token]) tokens.length =
        state.frame.negations.length := by
      rw [negationsBefore_append _ _ le_rfl, polar.negations_eq]
    rw [opened_concat, effect.outer_eq noneSkipped keeps, Token.map_bracket, Token.map_bracket,
      same, last]
  · rw [effect.polarities, governed_concat, polar.polarities_eq, polar.pending_eq]

/-- In keys in which nothing nests too deep, the negations around the leaf of a key are exactly
the `NOT`s that govern it. -/
theorem polarities_parse (shallow : (parse default tokens).Shallow) :
    ((parse default tokens).node).elim [] Node.polarities = governed tokens := by
  have start : State.initial.Polar [] := ⟨rfl, rfl, rfl⟩
  have polar : (run default .initial tokens).Polar tokens :=
    run_keeps_of_unlimited start
      (fun _ _ _ _ noneSkipped keeps polar => polar.step default noneSkipped keeps)
      shallow.limited_eq
  rw [parse_node, polarities_nodeOf, polar.polarities_eq]

/-- A negation in front of a group that is never closed reaches to the end, one in front of an
empty group reaches nothing, and one at the end of a group does not reach its neighbour. -/
theorem polarities_parse_open :
    let tokens := [Token.operator .not, .openParen, .closeParen, .term "a", .operator .not,
      .operator .not, .openParen, .term "b", .operator .not, .openParen, .phrase "c",
      .operator .not, .closeParen, .term "d"]
    (parse .or tokens).Shallow ∧ (parse .or tokens).node.elim [] Node.polarities =
      [("a", 0), ("b", 2), ("c", 3), ("d", 2)] := by
  intro tokens
  have shallow : (parse .or tokens).Shallow := by decide +kernel
  exact ⟨shallow, (polarities_parse shallow).trans (by decide +kernel)⟩

end Parser

end SearchKeys
