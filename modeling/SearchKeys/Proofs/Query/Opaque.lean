/-
# Parentheses make operands

Tokens in parentheses are read as if nothing stood around them, and then taken over like a single
key. What they are a part of sees only whether their tree is a negation: if it is not, any key may
stand in its place. This holds of all surroundings, whether or not they are well formed.

## Main results

* `Parser.parallel_inside`: reading inside of parentheses is reading the same tokens alone.
* `Parser.run_parens`: behind the parentheses, the tree of the tokens has been taken over.
* `Parser.nodeOf_substitute`: what is taken over is the same for all names but for one key.
* `Parser.parse_parens`: the tree around the parentheses is that around a key.
-/

import SearchKeys.Proofs.Query.Keys
import SearchKeys.Proofs.Query.Parallel
import SearchKeys.Proofs.Query.Polarity
import SearchKeys.Proofs.Query.Substitute
import Mathlib.Data.Fintype.EquivFin

namespace SearchKeys

/-- Names can be replaced by any trees that are not negations. -/
theorem Node.congruent_substitute {value : String → Node} (default : Conjunction)
    (positive : ∀ key, (value key).isNegation = false) :
    Congruent default default fun node node' => node = node'.substitute value where
  isNegation_eq {_ node'} related := by
    subst related
    cases node' with
    | keys text => rw [substitute_keys, positive, isNegation]
    | group => rw [substitute_group, isNegation, isNegation]
  not related := by rw [substitute_not, related]
  group related := by
    rw [← List.forall₂_map_right_iff, List.forall₂_eq_eq_eq] at related
    rw [substitute_group, related]
  run related _ := by
    rw [← List.forall₂_map_right_iff, List.forall₂_eq_eq_eq] at related
    rw [substitute_group, related]

namespace Parser

variable {default : Conjunction} {state : State} {before inner after : List Token}

/-- What skips nothing to its end skips nothing before. -/
theorem limited_of_run_append
    (unlimited : (run default state (before ++ after)).limited = false) :
    (run default state before).limited = false := by
  induction after using List.reverseRecOn with
  | nil => rwa [List.append_nil] at unlimited
  | append_singleton after token ih =>
    rw [← List.append_assoc, run_concat] at unlimited
    refine ih (Bool.eq_false_iff.2 fun limited => ?_)
    rw [(step_limited_iff default).2 (.inl limited)] at unlimited
    cases unlimited

/-- A token that is followed by nothing skipped is not skipped itself. -/
theorem not_skips_of_run_concat {token : Token}
    (unlimited : (run default state (before ++ [token])).limited = false) :
    ¬(run default state before).Skips token := by
  intro skips
  rw [run_concat, (step_limited_iff default).2 (.inr skips)] at unlimited
  cases unlimited

/-! ### Inside of parentheses -/

theorem length_bracket {α β : Type} (token : Token) (new : α) (new' : β) {inside : List α}
    {inside' : List β} (same : inside.length = inside'.length) :
    (token.bracket new inside).length = (token.bracket new' inside').length := by
  cases token <;> simp [Token.bracket, same]

/-- Inside of parentheses that are not skipped, tokens are read as they are alone, as long as all
right parentheses among them are matched. -/
theorem parallel_inside
    (matched : ∀ position < inner.length, inner[position]? = some .closeParen →
      (opening? inner position).isSome)
    (unlimited : (run default .initial (before ++ .openParen :: inner)).limited = false) :
    (run default .initial (before ++ .openParen :: inner)).Parallel Eq (fun _ _ => True)
        ((run default .initial before).frame.operandDepth + 1)
        ((run default .initial before).frame :: (run default .initial before).outer)
        (run default .initial inner) ∧
      (run default .initial inner).outer.length = (opened inner).length := by
  induction inner using List.reverseRecOn with
  | nil =>
    have noneSkipped := (honest_run before).skipped_eq (limited_of_run_append unlimited)
    have room := State.operandDepth_lt_of_not_skips (.inl rfl) (not_skips_of_run_concat unlimited)
    have fresh (depth : Nat) : Frame.Parallel Eq (fun _ _ => True) depth (.fresh depth)
        (.fresh 0) := by
      simpa using Frame.parallel_fresh 0
    rw [run_concat, step_openParen default room, run_nil]
    exact ⟨⟨⟨fresh _, .base, trivial⟩, noneSkipped⟩, rfl⟩
  | append_singleton inner token ih =>
    have regrouped : before ++ .openParen :: (inner ++ [token]) =
        (before ++ .openParen :: inner) ++ [token] := by
      simp
    rw [regrouped] at unlimited ⊢
    have earlier := limited_of_run_append unlimited
    have matchedInner : ∀ position < inner.length, inner[position]? = some .closeParen →
        (opening? inner position).isSome := by
      intro position bound isClose
      rw [← List.getElem?_append_left bound] at isClose
      rw [← opening?_append [token] bound]
      exact matched position (by rw [List.length_append]; omega) isClose
    obtain ⟨parallel, length_eq⟩ := ih matchedInner earlier
    -- alone the token is not so deep, so that it is not skipped either
    have keeps := not_skips_of_run_concat unlimited
    have keeps' : ¬(run default .initial inner).Skips token := by
      rintro ⟨limit, opens⟩
      rw [State.atLimit_iff] at limit
      refine keeps ⟨State.atLimit_iff.2 ?_, opens⟩
      rw [parallel.frame.operandDepth_eq]
      omega
    have noneSkipped' : (run default .initial inner).skipped = 0 :=
      parallel.skipped_eq.symm.trans ((honest_run _).skipped_eq earlier)
    rw [run_concat, run_concat]
    constructor
    · refine parallel.step (Node.congruent_eq default) (fun _ _ _ => trivial) (fun _ _ => rfl)
        (iff_of_false keeps keeps') fun isClose outermost => ?_
      -- a right parenthesis matches one among the tokens, so that its group is open
      subst isClose
      have open' := matched inner.length (by simp) (by simp)
      rw [opening?, if_pos (by simp), List.take_left] at open'
      rw [outermost] at length_eq
      rw [List.length_eq_zero_iff.1 length_eq.symm] at open'
      cases open'
    · rw [opened_concat, (step_effect default _ token).outer_eq noneSkipped' keeps']
      exact length_bracket token _ _ length_eq

/-- Behind balanced tokens in parentheses, the frame in front of them has taken their tree as its
operand. -/
theorem run_parens (before : List Token) (balanced : Balanced inner)
    (unlimited :
      (run default .initial (before ++ .openParen :: (inner ++ [.closeParen]))).limited = false) :
    let state := run default .initial before
    let behind := run default .initial (before ++ .openParen :: (inner ++ [.closeParen]))
    behind.frame = (state.frame.resolve default (parse default inner).node).1 ∧
      behind.outer = state.outer ∧ behind.skipped = 0 := by
  have regrouped : before ++ .openParen :: (inner ++ [.closeParen]) =
      (before ++ .openParen :: inner) ++ [.closeParen] := by
    simp
  rw [regrouped] at unlimited ⊢
  have earlier := limited_of_run_append unlimited
  obtain ⟨parallel, length_eq⟩ := parallel_inside balanced.matched earlier
  rw [balanced.closed, List.length_nil, List.length_eq_zero_iff] at length_eq
  have outer_eq : (run default .initial (before ++ .openParen :: inner)).outer =
      (run default .initial before).frame :: (run default .initial before).outer := by
    have around := parallel.outer
    rw [length_eq] at around
    generalize (run default .initial (before ++ .openParen :: inner)).outer = outer at around ⊢
    cases around
    rfl
  have noneSkipped : (run default .initial (before ++ .openParen :: inner)).skipped = 0 :=
    (honest_run _).skipped_eq earlier
  have node_eq : (parse default inner).node =
      (run default .initial (before ++ .openParen :: inner)).frame.fold.finish default := by
    rw [parse_node, length_eq, nodeOf, parallel.frame.fold.eq]
  rw [run_concat, node_eq]
  exact step_closeGroup default noneSkipped outer_eq

/-- A query in parentheses is the query. -/
theorem parse_parens_whole (balanced : Balanced inner)
    (shallow : (parse default (.openParen :: (inner ++ [.closeParen]))).Shallow) :
    (parse default (.openParen :: (inner ++ [.closeParen]))).node = (parse default inner).node := by
  -- nothing stands around the parentheses, so that the end closes a fresh frame with the tree in it
  obtain ⟨frame_eq, outer_eq, -⟩ := run_parens [] balanced shallow.limited_eq
  rw [List.nil_append] at frame_eq outer_eq
  rw [parse_node, frame_eq, outer_eq]
  show nodeOf default (Frame.resolve default (parse default inner).node (.fresh 0)).1 [] = _
  cases (parse default inner).node with
  | none => rfl
  | some node => rfl

/-! ### Any operand in place of a key -/

/-- If an operand is taken where a key stands under a name that occurs nowhere else, then the tree
at the end has the operand in place of that name. -/
theorem nodeOf_substitute {name : String} {new : Node} (positive : new.isNegation = false)
    (freshBefore : name ∉ before.filterMap Token.key?)
    (freshAfter : name ∉ after.filterMap Token.key?)
    (frame_eq : state.frame =
      ((run default .initial before).frame.resolve default (some new)).1)
    (outer_eq : state.outer = (run default .initial before).outer)
    (skipped_eq : state.skipped = (run default .initial before).skipped) :
    nodeOf default (run default state after).frame (run default state after).outer =
      (parse default (before ++ .term name :: after)).node.map
        (Node.substitute (Function.update Node.keys name new)) := by
  have values (key : String) :
      ((Function.update Node.keys name new : String → Node) key).isNegation = false := by
    by_cases same : key = name
    · subst same
      simpa using positive
    · rw [Function.update_of_ne same]
      rfl
  have congruent := Node.congruent_substitute default values
  have others {tokens : List Token} (fresh : name ∉ tokens.filterMap Token.key?) :
      ∀ token ∈ tokens, ∀ text, token.key? = some text → Node.keys text =
        (Node.keys text).substitute (Function.update Node.keys name new) := by
    intro token member text carries
    have other : text ≠ name := by
      rintro rfl
      exact fresh (List.mem_filterMap.2 ⟨token, member, carries⟩)
    rw [Node.substitute_keys, Function.update_of_ne other]
  -- up to the operand both runs are the same one, and behind it the name is the only difference
  have front := (State.parallel_initial (P := fun _ _ => True) trivial).run congruent
    (fun _ _ _ => trivial) (others freshBefore)
  have here : state.Parallel (fun node node' =>
        node = node'.substitute (Function.update Node.keys name new)) (fun _ _ => True) 0 []
      (step default (run default .initial before) (.term name)) := by
    refine ⟨⟨?_, ?_, trivial⟩, skipped_eq⟩
    · rw [frame_eq]
      refine front.frame.resolve congruent (.some ?_)
      rw [Node.substitute_keys, Function.update_self]
    · rw [outer_eq]
      exact front.outer
  have behind := here.run congruent (fun _ _ _ => trivial) (others freshAfter)
  have finished := nodeOf_parallel congruent behind.frame behind.outer
  rw [parse_node, run_append, run_cons]
  generalize nodeOf default (run default state after).frame _ = tree at finished ⊢
  generalize nodeOf default (run default (step _ _ _) after).frame _ = tree' at finished ⊢
  cases finished with
  | none => rfl
  | some same => rw [same, Option.map_some]

/-- A name that occurs nowhere else is one leaf of the tree, as far behind as there are keys in
front of it. -/
theorem exists_leaf (default : Conjunction) {name : String}
    (freshBefore : name ∉ before.filterMap Token.key?)
    (freshAfter : name ∉ after.filterMap Token.key?) :
    ∃ whole, (parse default (before ++ .term name :: after)).node = some whole ∧
      whole.leaves.count name = 1 ∧
      whole.leaves.idxOf name = (before.filterMap Token.key?).length := by
  have leaves := leaves_parse default (before ++ .term name :: after)
  have keys : (before ++ .term name :: after).filterMap Token.key? =
      before.filterMap Token.key? ++ name :: after.filterMap Token.key? := by
    simp [Token.key?]
  rw [keys] at leaves
  cases parsed : (parse default (before ++ .term name :: after)).node with
  | none => simp [parsed] at leaves
  | some whole =>
    rw [parsed, Option.elim_some] at leaves
    refine ⟨whole, rfl, ?_, ?_⟩
    · rw [leaves, List.count_append, List.count_cons_self, List.count_eq_zero.2 freshBefore,
        List.count_eq_zero.2 freshAfter]
    · rw [leaves, List.idxOf_append_of_notMem freshBefore, List.idxOf_cons_self, Nat.add_zero]

/-- The tree of balanced tokens in parentheses, unless it is a negation, stands where a key would
stand in place of the parentheses. In particular, parentheses around a whole query change
nothing. -/
theorem parse_parens {tree : Node} (balanced : Balanced inner)
    (parsed : (parse default inner).node = some tree) (positive : tree.isNegation = false) :
    (∀ before after : List Token,
      (parse default (before ++ .openParen :: (inner ++ .closeParen :: after))).Shallow →
      ∀ text, ∃ whole, (parse default (before ++ .term text :: after)).node = some whole ∧
        (parse default (before ++ .openParen :: (inner ++ .closeParen :: after))).node =
          some (whole.graft (before.filterMap Token.key?).length tree)) ∧
    ((parse default (.openParen :: (inner ++ [.closeParen]))).Shallow →
      (parse default (.openParen :: (inner ++ [.closeParen]))).node = some tree) := by
  refine ⟨fun before after shallow text => ?_,
    fun shallow => (parse_parens_whole balanced shallow).trans parsed⟩
  -- the text may be that of another key too, so that its own leaf is found by a name of its own
  obtain ⟨name, fresh⟩ := Infinite.exists_notMem_finset
    (before.filterMap Token.key? ++ after.filterMap Token.key?).toFinset
  rw [List.mem_toFinset, List.mem_append, not_or] at fresh
  obtain ⟨freshBefore, freshAfter⟩ := fresh
  have regrouped : before ++ .openParen :: (inner ++ .closeParen :: after) =
      (before ++ .openParen :: (inner ++ [.closeParen])) ++ after := by
    simp
  rw [regrouped] at shallow ⊢
  have unlimited := limited_of_run_append shallow.limited_eq
  obtain ⟨frame_eq, outer_eq, skipped_eq⟩ := run_parens before balanced unlimited
  have noneSkipped := (honest_run before).skipped_eq (limited_of_run_append unlimited)
  rw [parsed] at frame_eq
  -- both the tree and the key of the statement stand in place of the same fresh key
  have grafted := nodeOf_substitute positive freshBefore freshAfter frame_eq outer_eq
    (skipped_eq.trans noneSkipped.symm)
  let keyTaken := step default (run default .initial before) (.term text)
  have renamed : nodeOf default (run default keyTaken after).frame
      (run default keyTaken after).outer =
        (parse default (before ++ .term name :: after)).node.map
          (Node.substitute (Function.update Node.keys name (.keys text))) :=
    nodeOf_substitute rfl freshBefore freshAfter rfl rfl rfl
  obtain ⟨whole, named, once, index⟩ := exists_leaf default freshBefore freshAfter
  rw [named, Option.map_some] at grafted renamed
  refine ⟨whole.substitute (Function.update Node.keys name (.keys text)), ?_, ?_⟩
  · rw [parse_node, run_append, run_cons, renamed]
  · rw [parse_node, run_append, grafted, ← index, Node.graft_substitute once]

/-- A group with the same conjunction as the one around it is not merged with it, and operators
and negations in front of the parentheses act on all of it. -/
theorem parse_parens_malformed :
    let inner := [Token.operator .or, .term "b", .operator .and, .openParen, .term "c",
      .closeParen, .operator .or]
    let before := [Token.closeParen, .term "a", .operator .and, .operator .not]
    let after := [Token.operator .and, .term "d", .openParen]
    let tree := Node.group .and false [.keys "b", .keys "c"]
    Balanced inner ∧ (parse .or inner).node = some tree ∧
      (parse .or (before ++ .openParen :: (inner ++ .closeParen :: after))).Shallow ∧
      ∃ whole, (parse .or (before ++ .term "x" :: after)).node = some whole ∧
        (parse .or (before ++ .openParen :: (inner ++ .closeParen :: after))).node =
          some (whole.graft 1 tree) ∧
        whole.graft 1 tree = .group .and false [.keys "a", tree.not, .keys "d"] := by
  intro inner before after tree
  have balanced : Balanced inner := by decide
  have parsed : (parse .or inner).node = some tree := by decide
  have shallow : (parse .or (before ++ .openParen :: (inner ++ .closeParen :: after))).Shallow := by
    decide
  obtain ⟨whole, parsedWhole, grafted⟩ :=
    (parse_parens balanced parsed rfl).1 before after shallow "x"
  have read : (parse .or (before ++ .term "x" :: after)).node =
      some (.group .and false [.keys "a", (Node.keys "x").not, .keys "d"]) := by decide
  obtain rfl := Option.some.inj (parsedWhole.symm.trans read)
  refine ⟨balanced, parsed, shallow, _, read, grafted, ?_⟩
  simp [tree, Node.graft, Node.graftAmong, Node.leaves, Node.not]

end Parser

end SearchKeys
