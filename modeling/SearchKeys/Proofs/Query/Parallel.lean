/-
# Two parses side by side

The parser looks at the trees that it folds only to see whether they are negations. So if two
runs take the same tokens, and start with trees that can stand for each other, they go through
corresponding states: the same frames are open, and the same waits in each of them. What it means
that two trees can stand for each other is left open; it has to survive negation and grouping.

The two runs may use different default conjunctions, may be at different positions, and one of
them may read inside of groups that are not there for the other one.

## Main definitions

* `Node.Congruent`: a relation between trees that negation and grouping keep.
* `Parser.Frame.Parallel`, `Parser.Frame.Around`: corresponding frames, and those around them.
* `Parser.State.Aligned`: states with corresponding frames.
* `Parser.State.Parallel`: states that also skip the same.

## Main results

* `Parser.State.Aligned.step`, `Parser.State.Parallel.step`: a token that both runs skip or that
  neither skips keeps the correspondence.
* `Parser.State.Parallel.run`: so do all tokens if no further groups are around one of the runs.
* `Parser.nodeOf_parallel`: corresponding frames are closed to related trees.
-/

import SearchKeys.Proofs.Query.Reading
import SearchKeys.Proofs.Query.Record
import Mathlib.Data.List.Forall2
import Mathlib.Data.Option.Defs

namespace SearchKeys

/-- Related trees are negations only together, and stay related when they are negated or grouped.
Groups without an operator are related if each has the default conjunction of its side; they are
never made of negations. -/
structure Node.Congruent (default default' : Conjunction) (R : Node → Node → Prop) : Prop where
  isNegation_eq {node node' : Node} (related : R node node') :
    node.isNegation = node'.isNegation
  not {node node' : Node} (related : R node node') : R node.not node'.not
  group {conjunction : Conjunction} {children children' : List Node}
    (related : List.Forall₂ R children children') :
    R (.group conjunction false children) (.group conjunction false children')
  run {children children' : List Node} (related : List.Forall₂ R children children')
    (positive : ∀ child ∈ children, child.isNegation = false) :
    R (.group default false children) (.group default' false children')

/-- Equal trees can stand for each other. -/
theorem Node.congruent_eq (default : Conjunction) : Congruent default default Eq where
  isNegation_eq related := by rw [related]
  not related := by rw [related]
  group related := by
    rw [List.forall₂_eq_eq_eq] at related
    rw [related]
  run related _ := by
    rw [List.forall₂_eq_eq_eq] at related
    rw [related]

namespace Fold

variable {default default' conjunction : Conjunction} {R : Node → Node → Prop}
  {node node' : Node} {fold fold' : Fold} {members members' : List Node}

/-- The same has been folded, but for related trees. -/
inductive Parallel (R : Node → Node → Prop) : Fold → Fold → Prop
  | run {members members' : List Node} (related : List.Forall₂ R members members') :
    Parallel R (run members) (run members')
  | chain (conjunction : Conjunction) {operands operands' : List Node}
      (related : List.Forall₂ R operands operands') :
    Parallel R (chain conjunction operands) (chain conjunction operands')

theorem parallel_empty : Parallel R empty empty := .run .nil

theorem Parallel.isEmpty_eq (parallel : fold.Parallel R fold') :
    fold.isEmpty = fold'.isEmpty := by
  cases parallel with
  | run related => cases related <;> rfl
  | chain => rfl

/-- Related trees are equal, so the folds are. -/
theorem Parallel.eq (parallel : fold.Parallel Eq fold') : fold = fold' := by
  cases parallel with
  | run related =>
    rw [List.forall₂_eq_eq_eq] at related
    rw [related]
  | chain conjunction related =>
    rw [List.forall₂_eq_eq_eq] at related
    rw [related]

private theorem any_isNegation_eq (congruent : Node.Congruent default default' R)
    (related : List.Forall₂ R members members') :
    members.any Node.isNegation = members'.any Node.isNegation := by
  induction related with
  | nil => rfl
  | cons first _ ih => rw [List.any_cons, List.any_cons, congruent.isNegation_eq first, ih]

theorem joinRun_parallel (congruent : Node.Congruent default default' R)
    (related : List.Forall₂ R members members') :
    Option.Rel R (joinRun default members) (joinRun default' members') := by
  match members, members', related with
  | [], [], _ => exact .none
  | [_], [_], .cons first .nil => exact .some first
  | first :: second :: rest, first' :: second' :: rest', related =>
    -- a negation among the members decides for both sides
    rw [joinRun, joinRun, any_isNegation_eq congruent related]
    · split
      · exact .some (congruent.group (List.rel_reverse related))
      · next positive =>
        rw [← any_isNegation_eq congruent related] at positive
        refine .some (congruent.run (List.rel_reverse related) fun child member => ?_)
        simpa using List.any_eq_false.1 (Bool.eq_false_iff.2 positive) child
          (List.mem_reverse.1 member)
    all_goals simp

theorem Parallel.finish (congruent : Node.Congruent default default' R)
    (parallel : fold.Parallel R fold') :
    Option.Rel R (fold.finish default) (fold'.finish default') := by
  cases parallel with
  | run related => exact joinRun_parallel congruent related
  | chain conjunction related => exact .some (congruent.group (List.rel_reverse related))

theorem Parallel.push (congruent : Node.Congruent default default' R)
    (parallel : fold.Parallel R fold') (related : R node node') :
    (fold.push node).Parallel R (fold'.push node') := by
  cases parallel with
  | run others => exact .run (.cons related others)
  | chain conjunction others =>
    exact .run (.cons related (.cons (congruent.group (List.rel_reverse others)) .nil))

theorem Parallel.combine (congruent : Node.Congruent default default' R)
    (parallel : fold.Parallel R fold') (related : R node node') :
    (fold.combine default conjunction node).Parallel R
      (fold'.combine default' conjunction node') := by
  cases parallel with
  | run others =>
    rw [Fold.combine, Fold.combine]
    have joined := joinRun_parallel congruent others
    generalize joinRun default _ = left at joined ⊢
    generalize joinRun default' _ = left' at joined ⊢
    cases joined with
    | none => exact .run (.cons related .nil)
    | some joined => exact .chain _ (.cons related (.cons joined .nil))
  | chain previous others =>
    rw [Fold.combine, Fold.combine]
    split
    · exact .chain _ (.cons related others)
    · exact .chain _ (.cons related (.cons (congruent.group (List.rel_reverse others)) .nil))

theorem Parallel.attach (congruent : Node.Congruent default default' R) {link : Option Conjunction}
    (parallel : fold.Parallel R fold') (related : R node node') :
    (fold.attach default link node).Parallel R (fold'.attach default' link node') := by
  cases link with
  | none => exact parallel.push congruent related
  | some conjunction => exact parallel.combine congruent related

end Fold

namespace Parser

variable {default default' : Conjunction} {R : Node → Node → Prop} {P : Nat → Nat → Prop}
  {deeper : Nat} {base : List Frame} {frame frame' : Frame} {outer outer' : List Frame}
  {state state' : State} {token : Token} {operand operand' : Option Node}

/-! ### Frames -/

/-- The same waits in the frames for the next operand, at corresponding positions, behind the same
expression of related trees. The first frame stands inside of some more groups or negations. -/
structure Frame.Parallel (R : Node → Node → Prop) (P : Nat → Nat → Prop) (deeper : Nat)
    (frame frame' : Frame) : Prop where
  depth_eq : frame.depth = frame'.depth + deeper
  fold : frame.fold.Parallel R frame'.fold
  joiner : Option.Rel (fun joiner joiner' => joiner.1 = joiner'.1 ∧ P joiner.2 joiner'.2)
    frame.joiner frame'.joiner
  negations : List.Forall₂ P frame.negations frame'.negations

namespace Frame

theorem parallel_fresh (depth : Nat) :
    (fresh (depth + deeper)).Parallel R P deeper (fresh depth) :=
  ⟨rfl, Fold.parallel_empty, .none, .nil⟩

namespace Parallel

theorem link_eq (parallel : frame.Parallel R P deeper frame') : frame.link = frame'.link := by
  have joiner := parallel.joiner
  unfold link
  generalize frame.joiner = waiting at joiner ⊢
  generalize frame'.joiner = waiting' at joiner ⊢
  cases joiner with
  | none => rfl
  | some same => exact congrArg some same.1

theorem operandDepth_eq (parallel : frame.Parallel R P deeper frame') :
    frame.operandDepth = frame'.operandDepth + deeper := by
  rw [operandDepth, operandDepth, parallel.depth_eq, parallel.negations.length_eq]
  omega

/-- Related operands keep the correspondence, and so does the lack of an operand. -/
theorem resolve (congruent : Node.Congruent default default' R)
    (parallel : frame.Parallel R P deeper frame') (related : Option.Rel R operand operand') :
    (frame.resolve default operand).1.Parallel R P deeper
      (frame'.resolve default' operand').1 := by
  cases related with
  | none => exact ⟨parallel.depth_eq, parallel.fold, .none, .nil⟩
  | @some node node' related =>
    have negated : R (frame.negated node) (frame'.negated node') := by
      rw [Frame.negated, Frame.negated, parallel.negations.length_eq]
      induction frame'.negations.length with
      | zero => exact related
      | succ count ih =>
        rw [Function.iterate_succ_apply', Function.iterate_succ_apply']
        exact congruent.not ih
    rw [resolve_some, resolve_some, accept_fst, accept_fst, ← parallel.link_eq]
    exact ⟨parallel.depth_eq, parallel.fold.attach congruent negated, .none, .nil⟩

end Parallel

end Frame

/-- Corresponding frames are open around the innermost ones, and around those of the first run
there are others. -/
inductive Frame.Around (R : Node → Node → Prop) (P : Nat → Nat → Prop) (deeper : Nat)
    (base : List Frame) : List Frame → List Frame → Prop
  | base : Around R P deeper base base []
  | cons {frame frame' : Frame} {outer outer' : List Frame}
      (first : frame.Parallel R P deeper frame') (rest : Around R P deeper base outer outer') :
    Around R P deeper base (frame :: outer) (frame' :: outer')

/-- Corresponding frames are closed to related trees if there are no others. -/
theorem nodeOf_parallel (congruent : Node.Congruent default default' R)
    (parallel : frame.Parallel R P deeper frame')
    (around : Frame.Around R P deeper [] outer outer') :
    Option.Rel R (nodeOf default frame outer) (nodeOf default' frame' outer') := by
  induction around generalizing frame frame' with
  | base => exact parallel.fold.finish congruent
  | cons first _ ih => exact ih (first.resolve congruent (parallel.fold.finish congruent))

/-! ### States -/

/-- Corresponding frames are open, at corresponding positions. -/
structure State.Aligned (R : Node → Node → Prop) (P : Nat → Nat → Prop) (deeper : Nat)
    (base : List Frame) (state state' : State) : Prop where
  frame : state.frame.Parallel R P deeper state'.frame
  outer : Frame.Around R P deeper base state.outer state'.outer
  position : P state.position state'.position

/-- Corresponding frames are open, and as many right parentheses are still to be skipped. -/
structure State.Parallel (R : Node → Node → Prop) (P : Nat → Nat → Prop) (deeper : Nat)
    (base : List Frame) (state state' : State) : Prop
    extends State.Aligned R P deeper base state state' where
  skipped_eq : state.skipped = state'.skipped

theorem State.parallel_initial (start : P 0 0) : State.initial.Parallel R P 0 [] .initial :=
  ⟨⟨Frame.parallel_fresh 0, .base, start⟩, rfl⟩

/-- Only parentheses change the number of right ones that are to be skipped. -/
theorem step_skipped (default : Conjunction) (state : State) (token : Token) :
    (step default state token).skipped =
      match token with
      | .openParen => if state.atLimit then state.skipped + 1 else state.skipped
      | .closeParen => state.skipped - 1
      | _ => state.skipped := by
  have effect := step_effect default state token
  generalize (step default state token).skipped = skipped at effect ⊢
  generalize (step default state token).frame = frame at effect
  generalize (step default state token).outer = outer at effect
  cases effect with
  | @key token _ carries => cases token <;> first | rfl | cases carries
  | skipNot => rfl
  | negate => rfl
  | join conjunction => cases conjunction <;> rfl
  | skipOpen limit => exact (if_pos limit).symm
  | openGroup room => exact (if_neg room).symm
  | swallow => rfl
  | stray noneSkipped => exact (by omega : state.skipped = state.skipped - 1)
  | closeGroup noneSkipped => exact (by omega : state.skipped = state.skipped - 1)

theorem State.operandDepth_lt_of_not_skips (opens : token = .openParen ∨ token = .operator .not)
    (keeps : ¬state.Skips token) : state.frame.operandDepth < maxDepth := by
  simpa [Skips, atLimit, opens] using keeps

namespace State.Aligned

/-- At the same depth, both runs skip a token or neither does. -/
theorem skips_iff (aligned : state.Aligned R P 0 base state') (token : Token) :
    state.Skips token ↔ state'.Skips token := by
  rw [Skips, Skips, atLimit_iff, atLimit_iff, aligned.frame.operandDepth_eq, Nat.add_zero]

/-- A token that both runs skip keeps the correspondence. -/
theorem skip (aligned : state.Aligned R P deeper base state') (skips : state.Skips token)
    (skips' : state'.Skips token) (next : P (state.position + 1) (state'.position + 1)) :
    (Parser.step default state token).Aligned R P deeper base
      (Parser.step default' state' token) := by
  obtain ⟨frame_eq, outer_eq⟩ := skips.step default
  obtain ⟨frame_eq', outer_eq'⟩ := skips'.step default'
  refine ⟨?_, ?_, next⟩
  · rw [frame_eq, frame_eq']
    exact aligned.frame
  · rw [outer_eq, outer_eq']
    exact aligned.outer

/-- A token keeps the correspondence if both runs skip it or neither does, and if it does not
close a group that only one of them is in, nor is swallowed by only one of them. -/
theorem step (congruent : Node.Congruent default default' R)
    (succ : ∀ position position', P position position' → P (position + 1) (position' + 1))
    (aligned : state.Aligned R P deeper base state')
    (key : ∀ text, token.key? = some text → R (.keys text) (.keys text))
    (skips : state.Skips token ↔ state'.Skips token)
    (swallows : token = .closeParen → state.skipped = state'.skipped)
    (inside : token = .closeParen → state'.outer = [] → base = []) :
    (Parser.step default state token).Aligned R P deeper base
      (Parser.step default' state' token) := by
  have next := succ _ _ aligned.position
  have operand (text : String) (carries : token.key? = some text) :
      Frame.Parallel R P deeper (state.frame.accept default (.keys text)).1
        (state'.frame.accept default' (.keys text)).1 :=
    aligned.frame.resolve congruent (.some (key text carries))
  have joined (conjunction : Conjunction) : Frame.Parallel R P deeper
      ⟨state.frame.depth, state.frame.fold, some (conjunction, state.position), []⟩
      ⟨state'.frame.depth, state'.frame.fold, some (conjunction, state'.position), []⟩ :=
    ⟨aligned.frame.depth_eq, aligned.frame.fold, .some ⟨rfl, aligned.position⟩, .nil⟩
  match token with
  | .term text => exact ⟨operand text rfl, aligned.outer, next⟩
  | .phrase text => exact ⟨operand text rfl, aligned.outer, next⟩
  | .operator .and => exact ⟨joined .and, aligned.outer, next⟩
  | .operator .or => exact ⟨joined .or, aligned.outer, next⟩
  | .operator .not =>
    by_cases skip : state.Skips (.operator .not)
    · exact aligned.skip skip (skips.1 skip) next
    · have room := operandDepth_lt_of_not_skips (.inr rfl) skip
      have room' := operandDepth_lt_of_not_skips (.inr rfl) (mt skips.2 skip)
      rw [step_not default room, step_not default' room']
      exact ⟨⟨aligned.frame.depth_eq, aligned.frame.fold, aligned.frame.joiner,
        .cons aligned.position aligned.frame.negations⟩, aligned.outer, next⟩
  | .openParen =>
    -- a new frame has nothing in it on either side; the ones that are left stay around it
    by_cases skip : state.Skips .openParen
    · exact aligned.skip skip (skips.1 skip) next
    · have room := operandDepth_lt_of_not_skips (.inl rfl) skip
      have room' := operandDepth_lt_of_not_skips (.inl rfl) (mt skips.2 skip)
      rw [step_openParen default room, step_openParen default' room',
        aligned.frame.operandDepth_eq, Nat.add_right_comm]
      exact ⟨Frame.parallel_fresh _, .cons aligned.frame aligned.outer, next⟩
  | .closeParen =>
    -- whether the token is swallowed, closes a group or closes none is the same for both
    by_cases waiting : 0 < state.skipped
    · obtain ⟨frame_eq, outer_eq, _⟩ := step_swallow default waiting
      obtain ⟨frame_eq', outer_eq', _⟩ := step_swallow default' (swallows rfl ▸ waiting)
      refine ⟨?_, ?_, next⟩
      · rw [frame_eq, frame_eq']
        exact aligned.frame.resolve congruent .none
      · rw [outer_eq, outer_eq']
        exact aligned.outer
    · have none : state.skipped = 0 := by omega
      have none' : state'.skipped = 0 := swallows rfl ▸ none
      have around := aligned.outer
      generalize nested : state.outer = outer at around
      generalize nested' : state'.outer = outer' at around
      cases around with
      | base =>
        -- neither run is inside of a group
        obtain rfl := inside rfl nested'
        obtain ⟨frame_eq, outer_eq, _⟩ := step_stray default none nested
        obtain ⟨frame_eq', outer_eq', _⟩ := step_stray default' none' nested'
        refine ⟨?_, ?_, next⟩
        · rw [frame_eq, frame_eq']
          exact aligned.frame.resolve congruent .none
        · rw [outer_eq, outer_eq']
          exact .base
      | cons first rest =>
        obtain ⟨frame_eq, outer_eq, _⟩ := step_closeGroup default none nested
        obtain ⟨frame_eq', outer_eq', _⟩ := step_closeGroup default' none' nested'
        refine ⟨?_, ?_, next⟩
        · rw [frame_eq, frame_eq']
          exact first.resolve congruent (aligned.frame.fold.finish congruent)
        · rwa [outer_eq, outer_eq']

end State.Aligned

namespace State.Parallel

/-- A token keeps the correspondence if both runs skip it or neither does, and if it does not
close a group that only one of them is in. -/
theorem step (congruent : Node.Congruent default default' R)
    (succ : ∀ position position', P position position' → P (position + 1) (position' + 1))
    (parallel : state.Parallel R P deeper base state')
    (key : ∀ text, token.key? = some text → R (.keys text) (.keys text))
    (skips : state.Skips token ↔ state'.Skips token)
    (inside : token = .closeParen → state'.outer = [] → base = []) :
    (Parser.step default state token).Parallel R P deeper base
      (Parser.step default' state' token) := by
  refine ⟨parallel.toAligned.step congruent succ key skips (fun _ => parallel.skipped_eq) inside,
    ?_⟩
  rw [step_skipped, step_skipped, parallel.skipped_eq]
  cases token with
  | openParen =>
    have limit : state.atLimit = state'.atLimit := by
      rw [Bool.eq_iff_iff]
      simpa only [Skips, true_or, and_true] using skips
    simp only [limit]
  | _ => rfl

/-- At the same depth, and with no further groups around the first run, all tokens keep the
correspondence. -/
theorem run (congruent : Node.Congruent default default' R)
    (succ : ∀ position position', P position position' → P (position + 1) (position' + 1))
    {tokens : List Token}
    (keys : ∀ token ∈ tokens, ∀ text, token.key? = some text → R (.keys text) (.keys text))
    (parallel : state.Parallel R P 0 [] state') :
    (Parser.run default state tokens).Parallel R P 0 [] (Parser.run default' state' tokens) := by
  induction tokens generalizing state state' with
  | nil => exact parallel
  | cons token tokens ih =>
    obtain ⟨key, keys⟩ := List.forall_mem_cons.1 keys
    exact ih keys (parallel.step congruent succ key (parallel.skips_iff token) fun _ _ => rfl)

end State.Parallel

end Parser

end SearchKeys
