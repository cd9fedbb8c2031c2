/-
# Reading without parentheses

Inside a group at the limit all parentheses are skipped, so a tree that stands there is read as
if it had been written without them: its keys are folded from left to right. The result is the
tree itself exactly if the tree is flat.

## Main definitions

* `Node.links`: the keys of a tree with the operators in front of them.
* `Fold.combineKeys`: keys with operators in front of them are folded.

## Main results

* `Fold.exists_finish_combineKeys`: folding a group without its parentheses gives the group
  exactly if it is flat.
* `Parser.run_members_inline`: the members of a group at the limit are read like this, unless a
  token is lost.
-/

import SearchKeys.Proofs.Query.Weight

namespace SearchKeys

namespace Node

/-- The keys of a tree, each with the operator in front of it when all parentheses are left out;
`lead` is the operator in front of the tree. -/
def links (lead : Conjunction) : Node → List (Conjunction × String)
  | keys text => [(lead, text)]
  | group _ _ [] => []
  | group conjunction _ (first :: rest) =>
    first.links lead ++ rest.flatMap fun child => child.links conjunction

theorem links_ne_nil {node : Node} (wellFormed : node.WellFormed 2) (lead : Conjunction) :
    node.links lead ≠ [] := by
  induction wellFormed generalizing lead with
  | keys text => simp [links]
  | not _ ih => simpa [Node.not, links] using ih lead
  | @group conjunction children enough _ ih =>
    obtain ⟨first, second, rest, rfl⟩ := exists_cons_cons enough
    rw [links]
    simp [ih first (.head _) lead]

/-- The children of a flat tree are keys or flat. -/
theorem isKey_or_isFlat_of_mem {conjunction : Conjunction} {children : List Node} {child : Node}
    (flat : (group conjunction false children).isFlat) (member : child ∈ children) :
    child.isKey ∨ child.isFlat := by
  cases children with
  | nil => simp at member
  | cons first rest =>
    simp only [isFlat, Bool.and_eq_true, Bool.or_eq_true, List.all_eq_true] at flat
    obtain ⟨restKeys, firstFlat⟩ := flat
    rcases List.mem_cons.1 member with rfl | inRest
    · exact firstFlat.imp id And.left
    · exact .inl (restKeys child inRest)

end Node

namespace Fold

variable {default conjunction : Conjunction} {fold : Fold} {node : Node}

/-- Everything folded so far, continued with keys behind operators. -/
def combineKeys (default : Conjunction) (links : List (Conjunction × String)) (fold : Fold) :
    Fold :=
  links.foldl (fun fold link => fold.combine default link.1 (.keys link.2)) fold

theorem combineKeys_append (links links' : List (Conjunction × String)) :
    fold.combineKeys default (links ++ links') =
      (fold.combineKeys default links).combineKeys default links' :=
  List.foldl_append

/-- Nothing but keys has been folded so far, with an operator between any two of them. -/
def IsFlat : Fold → Prop
  | run members => members = [] ∨ ∃ text, members = [.keys text]
  | chain conjunction operands => (Node.group conjunction false operands.reverse).isFlat

theorem IsFlat.combine (flat : fold.IsFlat) (text : String) :
    (fold.combine default conjunction (.keys text)).IsFlat := by
  cases fold with
  | run members =>
    rcases flat with rfl | ⟨other, rfl⟩
    · exact .inr ⟨text, rfl⟩
    · simp [Fold.combine, joinRun, IsFlat, Node.isFlat, Node.isKey]
  | chain previous operands =>
    have flat' : (Node.group previous false operands.reverse).isFlat := flat
    rw [Fold.combine]
    split
    · next same =>
      obtain ⟨first, rest, reversed⟩ : ∃ first rest, operands.reverse = first :: rest := by
        refine List.exists_cons_of_ne_nil fun nothing => ?_
        simp [nothing, Node.isFlat] at flat'
      rw [reversed, Node.isFlat, Bool.and_eq_true] at flat'
      subst same
      simp only [IsFlat, List.reverse_cons, reversed, List.cons_append, Node.isFlat,
        List.all_append, flat'.1, flat'.2]
      rfl
    · next other => simp [IsFlat, Node.isFlat, Node.isKey, Node.joins, flat', other]

theorem IsFlat.combineKeys (flat : fold.IsFlat) (links : List (Conjunction × String)) :
    (fold.combineKeys default links).IsFlat := by
  induction links generalizing fold with
  | nil => exact flat
  | cons link links ih => exact ih (flat.combine link.2)

/-- Folded keys are a key or a flat tree. -/
theorem isFlat_of_finish (flat : fold.IsFlat) (finished : fold.finish default = some node) :
    node.isKey ∨ node.isFlat := by
  cases fold with
  | run members =>
    rcases flat with rfl | ⟨text, rfl⟩
    · cases finished
    · obtain rfl := Option.some.inj finished
      exact .inl rfl
  | chain conjunction operands =>
    obtain rfl := Option.some.inj finished
    exact .inr flat

/-- Keys behind the same operator are combined like all other trees. -/
theorem combineKeys_flatMap_links {members : List Node} (keys : ∀ member ∈ members, member.isKey) :
    fold.combineKeys default (members.flatMap fun member => member.links conjunction) =
      members.foldl (fun fold member => fold.combine default conjunction member) fold := by
  induction members generalizing fold with
  | nil => rfl
  | cons member members ih =>
    obtain ⟨first, others⟩ := List.forall_mem_cons.1 keys
    cases member with
    | keys text =>
      rw [List.flatMap_cons, combineKeys_append, ih others, Node.links]
      rfl
    | group => simp [Node.isKey] at first

/-- A flat tree is folded back from its keys and operators. -/
theorem combineKeys_links {children : List Node} (lead : Conjunction)
    (wellFormed : (Node.group conjunction false children).WellFormed 2)
    (flat : (Node.group conjunction false children).isFlat) :
    empty.combineKeys default ((Node.group conjunction false children).links lead) =
      chain conjunction children.reverse := by
  generalize tree_eq : Node.group conjunction false children = tree at wellFormed flat
  induction wellFormed generalizing conjunction children with
  | keys text => cases tree_eq
  | not _ _ => cases tree_eq
  | @group conjunction' children' enough inner ih =>
    obtain ⟨rfl, rfl⟩ : conjunction = conjunction' ∧ children = children' := by
      simpa using tree_eq
    obtain ⟨first, second, rest, rfl⟩ := Node.exists_cons_cons enough
    simp only [Node.isFlat, Bool.and_eq_true, Bool.or_eq_true, List.all_eq_true] at flat
    obtain ⟨restKeys, firstFlat⟩ := flat
    rw [Node.links, combineKeys_append, combineKeys_flatMap_links restKeys]
    -- the other children are keys, so it only matters what the first one is folded into
    cases first with
    | keys text =>
      rw [Node.links]
      exact foldl_combine_run ..
    | group conjunction' negated children' =>
      obtain ⟨flat', other⟩ := firstFlat.resolve_left (by simp [Node.isKey])
      obtain rfl : negated = false := by
        cases negated with
        | false => rfl
        | true => simp [Node.isFlat] at flat'
      have other' : conjunction' ≠ conjunction := by simpa [Node.joins] using other
      -- another operator takes the group that the first child was folded into
      have folded := ih _ (.head _) rfl flat'
      have joined : (chain conjunction' children'.reverse).combine default conjunction second =
          chain conjunction [second, .group conjunction' false children'] := by
        simp [combine, other']
      rw [folded, List.foldl_cons, joined, foldl_combine_chain]
      simp

theorem isEmpty_combineKeys (default : Conjunction) (fold : Fold)
    {links : List (Conjunction × String)} (some' : links ≠ []) :
    (fold.combineKeys default links).isEmpty = false := by
  obtain ⟨front, last, rfl⟩ := (List.eq_nil_or_concat links).resolve_left some'
  rw [List.concat_eq_append, combineKeys_append]
  exact isEmpty_combine ..

/-- Folding the keys and operators of a group gives a tree, which is the group itself exactly if
the group is flat. -/
theorem exists_finish_combineKeys {children : List Node} (default lead : Conjunction)
    (wellFormed : (Node.group conjunction false children).WellFormed 2) :
    ∃ result, (empty.combineKeys default
        ((Node.group conjunction false children).links lead)).finish default = some result ∧
      (result = .group conjunction false children ↔
        (Node.group conjunction false children).isFlat) := by
  obtain ⟨result, finished⟩ := exists_finish default
    (isEmpty_combineKeys default .empty (Node.links_ne_nil wellFormed lead))
  refine ⟨result, finished, fun same => ?_, fun flat => ?_⟩
  · have nothing : empty.IsFlat := .inl rfl
    have flat := isFlat_of_finish (nothing.combineKeys _) finished
    rw [same] at flat
    simpa [Node.isKey] using flat
  · rw [combineKeys_links lead wellFormed flat] at finished
    simpa [finish, eq_comm] using finished

end Fold

namespace Parser

variable {default conjunction lead : Conjunction} {state : State} {frame : Frame}
  {outer : List Frame} {depth skipped : Nat} {fold : Fold}

/-- A state apart from its position and from what was recorded. -/
structure State.Is (state : State) (frame : Frame) (outer : List Frame) (skipped : Nat) : Prop where
  /-- The innermost expression. -/
  frame_eq : state.frame = frame
  /-- The expressions around it. -/
  outer_eq : state.outer = outer
  /-- The number of skipped parentheses that are open. -/
  skipped_eq : state.skipped = skipped

theorem is_step_key (default : Conjunction) {token : Token} {text : String}
    (carries : token.key? = some text) (state : State) :
    (step default state token).Is (state.frame.accept default (.keys text)).1 state.outer
      state.skipped := by
  rw [step_key default carries]
  exact ⟨rfl, rfl, rfl⟩

theorem is_step_operator (default conjunction : Conjunction)
    (resting : state.frame = ⟨depth, fold, none, []⟩) :
    (step default state (.operator (.ofConjunction conjunction))).Is
      ⟨depth, fold, some (conjunction, state.position), []⟩ state.outer state.skipped := by
  rw [step_operator default conjunction resting]
  exact ⟨rfl, rfl, rfl⟩

theorem is_step_openParen_limit (default : Conjunction)
    (limit : maxDepth ≤ state.frame.operandDepth) :
    (step default state .openParen).Is state.frame state.outer (state.skipped + 1) := by
  have atLimit : state.atLimit = true := State.atLimit_iff.2 limit
  constructor <;> simp [step, State.take, State.openGroup, atLimit]

theorem is_step_closeParen_skipped (default : Conjunction)
    (resting : state.frame = ⟨depth, fold, none, []⟩) (waiting : state.skipped = skipped + 1) :
    (step default state .closeParen).Is ⟨depth, fold, none, []⟩ state.outer skipped := by
  constructor <;>
    simp [step, State.take, State.closeGroup, waiting, resting, Frame.abandon_fst]

/-! ### At the limit -/

/-- The frame of a group at the limit, where the next operand is combined as if it stood
behind the given operator. -/
structure Frame.Inlines (default lead : Conjunction) (frame : Frame) : Prop where
  /-- Nothing may nest any deeper. -/
  limit : maxDepth ≤ frame.depth
  /-- No negation waits. -/
  bare : frame.negations = []
  /-- The operator in front of the next operand, if it matters. -/
  attach_eq (node : Node) : frame.fold.attach default frame.link node =
    frame.fold.combine default lead node

theorem Frame.Inlines.operandDepth (inlines : frame.Inlines default lead) :
    maxDepth ≤ frame.operandDepth := by
  simpa [Frame.operandDepth, inlines.bare] using inlines.limit

theorem inlines_fresh (limit : maxDepth ≤ depth) : (Frame.fresh depth).Inlines default lead := by
  have isEmpty : Fold.empty.isEmpty = true := rfl
  exact ⟨limit, rfl, fun _ => (Fold.combine_of_isEmpty isEmpty).symm⟩

theorem inlines_behind (limit : maxDepth ≤ depth) (position : Nat) :
    (Frame.mk depth fold (some (lead, position)) []).Inlines default lead :=
  ⟨limit, rfl, fun _ => rfl⟩

/-- A tree in a group at the limit is read without its parentheses, unless some token is lost;
then the tree is neither a key nor flat. -/
def ReadInline (default : Conjunction) (node : Node) : Prop :=
  ∀ (state : State) (lead : Conjunction), state.frame.Inlines default lead →
    Loses default state (node.tokens true) ∧ ¬(node.isKey ∨ node.isFlat) ∨
    (run default state (node.tokens true)).Is
      ⟨state.frame.depth, state.frame.fold.combineKeys default (node.links lead), none, []⟩
      state.outer state.skipped

theorem run_tokensBehind_inline (conjunction : Conjunction) {members : List Node}
    (read : ∀ member ∈ members, ReadInline default member) (limit : maxDepth ≤ depth)
    (resting : state.frame = ⟨depth, fold, none, []⟩) :
    Loses default state (Node.tokensBehind conjunction members) ∧
      (∃ member ∈ members, ¬(member.isKey ∨ member.isFlat)) ∨
    (run default state (Node.tokensBehind conjunction members)).Is
      ⟨depth, fold.combineKeys default
        (members.flatMap fun member => member.links conjunction), none, []⟩
      state.outer state.skipped := by
  induction members generalizing state fold with
  | nil => exact .inr ⟨resting, rfl, rfl⟩
  | cons member members ih =>
    obtain ⟨readFirst, readOthers⟩ := List.forall_mem_cons.1 read
    have joined := is_step_operator default conjunction resting
    have inlines : (step default state
        (.operator (.ofConjunction conjunction))).frame.Inlines default conjunction := by
      rw [joined.frame_eq]
      exact inlines_behind limit _
    rw [Node.tokensBehind, List.flatMap_cons, List.cons_append, ← Node.tokensBehind, run_cons,
      run_append, Loses, loses_append]
    rcases readFirst _ _ inlines with ⟨loses, notFlat⟩ | first
    · exact .inl ⟨.inr (.inl loses), member, .head _, notFlat⟩
    · rw [joined.frame_eq, joined.outer_eq, joined.skipped_eq] at first
      rcases ih readOthers first.frame_eq with ⟨loses, other, inside, notFlat⟩ | behind
      · exact .inl ⟨.inr (.inr loses), other, .tail _ inside, notFlat⟩
      · rw [first.outer_eq, first.skipped_eq] at behind
        rw [List.flatMap_cons, Fold.combineKeys_append]
        exact .inr behind

/-- The members of a group at the limit are read without parentheses, unless a token is lost;
then the group is not flat. -/
theorem run_members_inline (conjunction : Conjunction) {first second : Node} {rest : List Node}
    (read : ∀ member ∈ first :: second :: rest, ReadInline default member)
    (inlines : state.frame.Inlines default lead) :
    Loses default state (first.tokens true ++ Node.tokensBehind conjunction (second :: rest)) ∧
      ¬(Node.group conjunction false (first :: second :: rest)).isFlat ∨
    (run default state
      (first.tokens true ++ Node.tokensBehind conjunction (second :: rest))).Is
      ⟨state.frame.depth, state.frame.fold.combineKeys default
        ((Node.group conjunction false (first :: second :: rest)).links lead), none, []⟩
      state.outer state.skipped := by
  obtain ⟨readFirst, readOthers⟩ := List.forall_mem_cons.1 read
  rw [run_append, loses_append]
  rcases readFirst _ _ inlines with ⟨loses, notFlat⟩ | taken
  · exact .inl ⟨.inl loses, fun flat => notFlat (Node.isKey_or_isFlat_of_mem flat (.head _))⟩
  · rcases run_tokensBehind_inline conjunction readOthers inlines.limit
      taken.frame_eq with ⟨loses, other, inside, notFlat⟩ | behind
    · exact .inl ⟨.inr loses,
        fun flat => notFlat (Node.isKey_or_isFlat_of_mem flat (.tail _ inside))⟩
    · rw [taken.outer_eq, taken.skipped_eq, ← Fold.combineKeys_append] at behind
      rw [Node.links]
      exact .inr behind

theorem readInline {node : Node} (wellFormed : node.WellFormed 2) : ReadInline default node := by
  induction wellFormed with
  | keys text =>
    intro state lead inlines
    have taken := is_step_key default (Token.key?_ofKey text) state
    rw [Frame.accept_fst, Frame.negated, inlines.bare, List.length_nil, Function.iterate_zero_apply,
      inlines.attach_eq] at taken
    rw [Node.tokens, Node.links]
    exact .inr taken
  | @not child _ _ =>
    -- the `NOT` is the token that is lost
    intro state lead inlines
    rw [Node.tokens_not]
    refine .inl ⟨.inl ⟨inlines.operandDepth, .inl rfl⟩, ?_⟩
    simp [Node.not, Node.isKey, Node.isFlat]
  | @group conjunction children enough _ ih =>
    intro state lead inlines
    obtain ⟨first, second, rest, rfl⟩ := Node.exists_cons_cons enough
    -- the parenthesis is skipped, so that the frame stays as it is
    have opened := is_step_openParen_limit default inlines.operandDepth
    have inlines' : (step default state .openParen).frame.Inlines default lead := by
      rw [opened.frame_eq]
      exact inlines
    rw [(Node.tokens_group ..).1, List.cons_append, run_cons, run_append, Loses, loses_append]
    rcases run_members_inline conjunction ih inlines' with
      ⟨loses, notFlat⟩ | members
    · exact .inl ⟨.inr (.inl loses), by simpa [Node.isKey] using notFlat⟩
    · rw [opened.frame_eq, opened.outer_eq, opened.skipped_eq] at members
      have closed := is_step_closeParen_skipped default members.frame_eq
        members.skipped_eq
      rw [members.outer_eq] at closed
      exact .inr closed

end Parser

end SearchKeys
