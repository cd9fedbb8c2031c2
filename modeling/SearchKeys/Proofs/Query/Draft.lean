/-
# What the parser has kept

Each token that the parser has not ignored is kept with its position, in a draft for each open
expression. The tokens that wait for an operand stand behind the draft of their frame: they are
taken over when the operand comes, or dropped and recorded.

A draft is an expression of the grammar, and it is read into the fold of its frame. So the
drafts show that what is on record accounts for all that was left out.

## Main definitions

* `Parser.Frame.waiting`: the tokens in front of the next operand.
* `Parser.Draft`, `Parser.Drafts`: the tokens kept so far make up the open expressions.
* `Parser.kept`: the tokens that the warnings so far do not name.

## Main results

* `Parser.Effect.drafts`: a step drops what it records and keeps what it takes.
* `Parser.keeps_run`: as long as no token is skipped, the tokens that were kept make up the open
  expressions.
-/

import SearchKeys.Proofs.Query.Grammar
import SearchKeys.Proofs.Query.Record

namespace SearchKeys.Parser

open Grammar Warning

variable {default : Conjunction} {state : State} {frame around : Frame} {outer : List Frame}
  {all before behind draft : List (Token × Nat)}

/-! ### Waiting tokens -/

/-- The tokens without those at the positions. -/
def dropping (positions : List Nat) (all : List (Token × Nat)) : List (Token × Nat) :=
  all.filter fun token => token.2 ∉ positions

theorem dropping_nil : dropping [] all = all := by
  simp [dropping]

theorem dropping_append {positions : List Nat} :
    dropping positions (before ++ behind) =
      dropping positions before ++ dropping positions behind := by
  simp [dropping]

theorem dropping_congr {first second : List Nat}
    (same : ∀ position, position ∈ first ↔ position ∈ second) :
    dropping first all = dropping second all :=
  List.filter_congr fun token _ => decide_eq_decide.2 (not_congr (same token.2))

theorem dropping_dropping (first second : List Nat) :
    dropping (first ++ second) all = dropping second (dropping first all) := by
  simp [dropping, List.filter_filter, Bool.and_comm]

theorem nodup_dropping (positions : List Nat) (nodup : (all.map Prod.snd).Nodup) :
    ((dropping positions all).map Prod.snd).Nodup :=
  nodup.sublist (List.filter_sublist.map _)

/-- Nothing is dropped at positions where no token stands. -/
theorem dropping_of_disjoint {positions : List Nat}
    (disjoint : ∀ position ∈ positions, position ∉ all.map Prod.snd) :
    dropping positions all = all := by
  refine List.filter_eq_self.2 fun token member => ?_
  rw [decide_eq_true_eq]
  exact fun dropped => disjoint _ dropped (List.mem_map_of_mem member)

theorem dropping_eq_nil {positions : List Nat}
    (dropped : ∀ position ∈ all.map Prod.snd, position ∈ positions) :
    dropping positions all = [] := by
  refine List.filter_eq_nil_iff.2 fun token member => ?_
  simpa using dropped _ (List.mem_map_of_mem member)

/-- Positions of the tokens in the middle concern these alone. -/
theorem dropping_middle {positions : List Nat} {middle : List (Token × Nat)}
    (before : List (Token × Nat))
    (nodup : ((before ++ (middle ++ behind)).map Prod.snd).Nodup)
    (inMiddle : ∀ position ∈ positions, position ∈ middle.map Prod.snd) :
    dropping positions (before ++ (middle ++ behind)) =
      before ++ (dropping positions middle ++ behind) := by
  simp only [List.map_append, List.nodup_append] at nodup
  obtain ⟨_, ⟨_, _, apart⟩, apartBefore⟩ := nodup
  have first : dropping positions before = before := dropping_of_disjoint fun position member
    inside => apartBefore _ inside _ (List.mem_append_left _ (inMiddle _ member)) rfl
  have last : dropping positions behind = behind := dropping_of_disjoint fun position member
    inside => apart _ (inMiddle _ member) _ inside rfl
  rw [dropping_append, dropping_append, first, last]

namespace Frame

/-- The operator in front of the next operand, as a token. -/
def waitingJoiner (frame : Frame) : List (Token × Nat) :=
  frame.joiner.toList.map fun joiner => (.operator (.ofConjunction joiner.1), joiner.2)

/-- The negations in front of the next operand, as tokens. -/
def waitingNegations (frame : Frame) : List (Token × Nat) :=
  frame.negations.reverse.map (Prod.mk (.operator .not))

/-- The tokens in front of the next operand. -/
def waiting (frame : Frame) : List (Token × Nat) :=
  frame.waitingJoiner ++ frame.waitingNegations

@[simp] theorem waiting_resting (depth : Nat) (fold : Fold) :
    (⟨depth, fold, none, []⟩ : Frame).waiting = [] := rfl

/-- Behind an operand, or the lack of one, nothing waits. -/
theorem waiting_resolve (operand : Option Node) (frame : Frame) :
    (frame.resolve default operand).1.waiting = [] := by
  cases operand with
  | none => rfl
  | some node => rw [resolve_some, accept_fst, waiting_resting]

theorem waitingNegations_fst (frame : Frame) :
    frame.waitingNegations.map Prod.fst =
      List.replicate frame.negations.length (.operator .not) := by
  simp [waitingNegations, Function.comp_def]

/-- A frame that waits in vain drops all tokens that wait. -/
theorem ignored_abandon (frame : Frame) :
    ∀ position, position ∈ ignored frame.abandon.2 ↔ position ∈ frame.waiting.map Prod.snd := by
  intro position
  cases joiner : frame.joiner <;>
    simp [abandon, ignored, waiting, waitingJoiner, waitingNegations, joiner, ignored?,
      Function.comp_def, or_comm]

/-- An operand without an operator in front of it, or with something on the left of the
operator, takes all tokens that wait for it. -/
theorem ignored_accept_of_joins (node : Node)
    (joins : frame.joiner = none ∨ frame.fold.isEmpty = false) :
    ignored (frame.accept default node).2 = [] := by
  rw [accept]
  cases joiner : frame.joiner with
  | none => rfl
  | some joiner => simp [joins.resolve_left (by simp [joiner]), ignored]

/-- An operator with nothing on its left is dropped. -/
theorem ignored_accept_of_isEmpty (node : Node) (empty : frame.fold.isEmpty) :
    ignored (frame.accept default node).2 = frame.waitingJoiner.map Prod.snd := by
  rw [accept, waitingJoiner]
  cases frame.joiner with
  | none => rfl
  | some joiner => simp [empty, ignored, ignored?]

/-- Only the negations are left when the operator in front of them is dropped. -/
theorem dropping_waitingJoiner (nodup : (frame.waiting.map Prod.snd).Nodup) :
    dropping (frame.waitingJoiner.map Prod.snd) frame.waiting = frame.waitingNegations := by
  have dropped := dropping_middle [] nodup fun _ member => member
  rwa [dropping_eq_nil fun _ member => member] at dropped

/-- Whatever becomes of the tokens that wait, no others are dropped. -/
theorem ignored_resolve_subset (operand : Option Node) :
    ∀ position ∈ ignored (frame.resolve default operand).2,
      position ∈ frame.waiting.map Prod.snd := by
  intro position dropped
  cases operand with
  | none => exact (ignored_abandon frame position).1 dropped
  | some node =>
    rw [resolve_some] at dropped
    cases empty : frame.fold.isEmpty with
    | true =>
      rw [ignored_accept_of_isEmpty node empty] at dropped
      rw [waiting, List.map_append]
      exact List.mem_append_left _ dropped
    | false => simp [ignored_accept_of_joins node (.inr empty)] at dropped

end Frame

/-! ### Drafts -/

/-- The tokens kept for a frame are the expression that it has folded. -/
structure Draft (default : Conjunction) (frame : Frame) (draft : List (Token × Nat)) : Prop where
  /-- They are an expression of the grammar. -/
  isExpression : IsExpression frame.depth (!frame.fold.isEmpty) (draft.map Prod.fst)
  /-- They are read into the fold of the frame. -/
  reads : ReadsExpression default frame.depth frame.fold (draft.map Prod.fst)
  /-- The negations that wait nest within the limit. -/
  operandDepth_le : frame.operandDepth ≤ maxDepth

theorem draft_fresh {depth : Nat} (shallow : depth ≤ maxDepth) :
    Draft default (.fresh depth) [] :=
  ⟨.nil, readsExpression_nil, shallow⟩

/-- The draft does not depend on what waits. -/
theorem Draft.abandon (kept : Draft default frame draft) (joiner : Option (Conjunction × Nat)) :
    Draft default ⟨frame.depth, frame.fold, joiner, []⟩ draft :=
  ⟨kept.isExpression, kept.reads, (Nat.le_add_right ..).trans kept.operandDepth_le⟩

/-- An operand is taken over together with the tokens that wait for it and are not dropped. -/
theorem Draft.accept {node : Node} {operand : List (Token × Nat)}
    (kept : Draft default frame draft) (nodup : (frame.waiting.map Prod.snd).Nodup)
    (isOperand : IsOperand frame.operandDepth (operand.map Prod.fst))
    (reads : ReadsOperand default frame.operandDepth node (operand.map Prod.fst)) :
    Draft default (frame.accept default node).1
      (draft ++ (dropping (ignored (frame.accept default node).2) frame.waiting ++ operand)) := by
  have room : frame.depth + frame.negations.length ≤ maxDepth := kept.operandDepth_le
  have shallow : frame.depth ≤ maxDepth := by omega
  have isNegated := isOperand.replicate_not room
  have readsNegated := reads.replicate_not room
  rw [← Frame.waitingNegations_fst, ← List.map_append] at isNegated readsNegated
  rw [Frame.accept_fst]
  cases joins : frame.link with
  | none =>
    have noJoiner : frame.joiner = none := by simpa [Frame.link] using joins
    have waiting : frame.waiting = frame.waitingNegations := by
      simp [Frame.waiting, Frame.waitingJoiner, noJoiner]
    rw [Frame.ignored_accept_of_joins node (.inl noJoiner), dropping_nil, waiting]
    refine ⟨?_, ?_, shallow⟩
    · rw [List.map_append, Fold.isEmpty_attach]
      exact kept.isExpression.operand isNegated
    · rw [List.map_append]
      exact kept.reads.operand readsNegated
  | some conjunction =>
    obtain ⟨position, joiner⟩ : ∃ position, frame.joiner = some (conjunction, position) := by
      simpa [Frame.link] using joins
    have waitingJoiner : frame.waitingJoiner =
        [(.operator (.ofConjunction conjunction), position)] := by
      simp [Frame.waitingJoiner, joiner]
    cases empty : frame.fold.isEmpty with
    | true =>
      -- the operator has nothing on its left, so that only the negations are taken over
      rw [Frame.ignored_accept_of_isEmpty node empty,
        Frame.dropping_waitingJoiner nodup]
      refine ⟨?_, ?_, shallow⟩
      · rw [List.map_append, Fold.isEmpty_attach]
        exact kept.isExpression.operand isNegated
      · rw [List.map_append]
        have attached : frame.fold.attach default (some conjunction) (frame.negated node) =
            frame.fold.push (frame.negated node) := Fold.combine_of_isEmpty empty
        rw [attached]
        exact kept.reads.operand readsNegated
    | false =>
      rw [Frame.ignored_accept_of_joins node (.inr empty), dropping_nil, Frame.waiting,
        waitingJoiner]
      have isExpression := kept.isExpression
      rw [empty] at isExpression
      refine ⟨?_, ?_, shallow⟩
      · rw [Fold.isEmpty_attach]
        simpa using isExpression.joined conjunction isNegated
      · simpa [Fold.attach, Frame.negated] using
          kept.reads.joined empty conjunction readsNegated

/-- The tokens kept so far are the drafts of the open frames, outermost first, each followed by
the tokens that wait in its frame and by the parenthesis that opens the next one. -/
inductive Drafts (default : Conjunction) : Frame → List Frame → List (Token × Nat) → Prop
  | outermost {frame : Frame} {draft : List (Token × Nat)} (depth_eq : frame.depth = 0)
      (kept : Draft default frame draft) : Drafts default frame [] (draft ++ frame.waiting)
  | inside {frame around : Frame} {outer : List Frame} {before draft : List (Token × Nat)}
      (position : Nat) (rest : Drafts default around outer before)
      (room : around.operandDepth < maxDepth) (depth_eq : frame.depth = around.operandDepth + 1)
      (kept : Draft default frame draft) :
    Drafts default frame (around :: outer)
      (before ++ (.openParen, position) :: (draft ++ frame.waiting))

/-- The tokens of the innermost frame come last, and it may change as long as it stays at its
depth. -/
theorem Drafts.focus (drafts : Drafts default frame outer all) : ∃ before draft,
    all = before ++ (draft ++ frame.waiting) ∧ Draft default frame draft ∧
    ∀ {frame' : Frame} {draft' : List (Token × Nat)}, frame'.depth = frame.depth →
      Draft default frame' draft' →
      Drafts default frame' outer (before ++ (draft' ++ frame'.waiting)) := by
  cases drafts with
  | @outermost _ draft depth_eq kept =>
    refine ⟨[], draft, rfl, kept, fun same kept' => ?_⟩
    exact .outermost (same.trans depth_eq) kept'
  | @inside _ around outer before draft position rest room depth_eq kept =>
    refine ⟨before ++ [(.openParen, position)], draft, by simp, kept, fun same kept' => ?_⟩
    simpa using rest.inside position room (same.trans depth_eq) kept'

/-- If no group is open and nothing waits, all tokens are one draft. -/
theorem Drafts.draft_of_outermost {depth : Nat} {fold : Fold}
    (drafts : Drafts default ⟨depth, fold, none, []⟩ [] all) :
    depth = 0 ∧ Draft default ⟨depth, fold, none, []⟩ all := by
  cases drafts with
  | outermost depth_eq kept => exact ⟨depth_eq, by simpa using kept⟩

/-- The innermost frame drops tokens that wait in it and takes further tokens over. -/
theorem Drafts.update {positions : List Nat} {operand : List (Token × Nat)}
    (drafts : Drafts default frame outer all) (nodup : ((all ++ operand).map Prod.snd).Nodup)
    (waits : ∀ position ∈ positions, position ∈ frame.waiting.map Prod.snd) {frame' : Frame}
    (same : frame'.depth = frame.depth)
    (kept' : ∀ draft, Draft default frame draft → (frame.waiting.map Prod.snd).Nodup →
      Draft default frame' (draft ++ (dropping positions frame.waiting ++ operand))) :
    Drafts default frame' outer (dropping positions (all ++ operand) ++ frame'.waiting) := by
  obtain ⟨before, draft, rfl, kept, replace⟩ := drafts.focus
  have regrouped : before ++ (draft ++ frame.waiting) ++ operand =
      (before ++ draft) ++ (frame.waiting ++ operand) := by
    simp
  rw [regrouped] at nodup ⊢
  rw [dropping_middle _ nodup waits]
  simp only [List.map_append, List.nodup_append] at nodup
  simpa using replace same (kept' draft kept nodup.2.1.1)

/-- The innermost frame takes an operand. -/
theorem Drafts.accept {node : Node} {operand : List (Token × Nat)}
    (drafts : Drafts default frame outer all) (nodup : ((all ++ operand).map Prod.snd).Nodup)
    (isOperand : IsOperand frame.operandDepth (operand.map Prod.fst))
    (reads : ReadsOperand default frame.operandDepth node (operand.map Prod.fst)) :
    Drafts default (frame.accept default node).1 outer
      (dropping (ignored (frame.accept default node).2) (all ++ operand)) := by
  have waits : ∀ position ∈ ignored (frame.accept default node).2,
      position ∈ frame.waiting.map Prod.snd := Frame.ignored_resolve_subset (some node)
  have same : (frame.accept default node).1.depth = frame.depth := by rw [Frame.accept_fst]
  have taken := drafts.update nodup waits same fun draft kept nodupWaiting =>
    kept.accept nodupWaiting isOperand reads
  rw [Frame.accept_fst] at taken ⊢
  simpa using taken

/-- The innermost frame drops what waits in it. -/
theorem Drafts.abandon (drafts : Drafts default frame outer all)
    (nodup : (all.map Prod.snd).Nodup) (joiner : Option (Conjunction × Nat)) :
    Drafts default ⟨frame.depth, frame.fold, joiner, []⟩ outer
      (dropping (ignored frame.abandon.2) all ++
        (⟨frame.depth, frame.fold, joiner, []⟩ : Frame).waiting) := by
  rw [← List.append_nil all] at nodup ⊢
  refine drafts.update nodup (fun position => (Frame.ignored_abandon frame position).1) rfl
    fun draft kept _ => ?_
  rw [dropping_eq_nil fun position => (Frame.ignored_abandon frame position).2]
  simpa using kept.abandon joiner

/-- Parentheses without an operand between them may also stand where negations that were in
front of them are gone. -/
theorem Draft.emptyGroup {inside : List (Token × Nat)} {depth opened closed : Nat}
    (kept : Draft default frame draft) (fewer : frame.depth ≤ depth) (room : depth < maxDepth)
    (isEmpty : IsExpression (depth + 1) false (inside.map Prod.fst)) :
    Draft default frame (draft ++ (.openParen, opened) :: (inside ++ [(.closeParen, closed)])) := by
  have isEmpty' := isEmpty.mono (Nat.succ_le_succ fewer)
  obtain ⟨fold, empty, reads⟩ := exists_readsExpression default isEmpty'
  refine ⟨?_, ?_, kept.operandDepth_le⟩
  · simpa using kept.isExpression.emptyGroup (by omega) isEmpty'
  · simpa using kept.reads.emptyGroup (by omega) reads empty

/-- The innermost frame drops what waits in it, and takes empty parentheses over. -/
theorem Drafts.emptyGroup {inside : List (Token × Nat)} {opened closed : Nat}
    (drafts : Drafts default frame outer all)
    (nodup : ((all ++ (Token.openParen, opened) :: (inside ++ [(Token.closeParen, closed)])).map
      Prod.snd).Nodup)
    (room : frame.operandDepth < maxDepth)
    (isEmpty : IsExpression (frame.operandDepth + 1) false (inside.map Prod.fst)) :
    Drafts default frame.abandon.1 outer (dropping (ignored frame.abandon.2)
      (all ++ (.openParen, opened) :: (inside ++ [(.closeParen, closed)]))) := by
  have waits (position : Nat) := (Frame.ignored_abandon frame position).1
  have same : frame.abandon.1.depth = frame.depth := rfl
  have taken := drafts.update nodup waits same fun draft kept _ => by
    rw [dropping_eq_nil fun position => (Frame.ignored_abandon frame position).2]
    exact (kept.emptyGroup (Nat.le_add_right ..) room isEmpty).abandon none
  simpa [Frame.abandon_fst] using taken

/-- A frame that is closed is handed to the frame around it as an operand, or without an operand
in it as an empty group. -/
theorem Drafts.closeGroup {closed : Nat} (drafts : Drafts default frame (around :: outer) all)
    (nodup : ((all ++ [(Token.closeParen, closed)]).map Prod.snd).Nodup) :
    Drafts default (around.resolve default (frame.fold.finish default)).1 outer
      (dropping
        (ignored (frame.abandon.2 ++ (around.resolve default (frame.fold.finish default)).2))
        (all ++ [(Token.closeParen, closed)])) := by
  cases drafts with
  | @inside _ _ _ before draft opened rest room depth_eq kept =>
    -- what waits in the inner frame is dropped in any case
    have dropped : dropping (ignored frame.abandon.2)
          (before ++ (.openParen, opened) :: (draft ++ frame.waiting) ++
            [(Token.closeParen, closed)]) =
        before ++ (.openParen, opened) :: (draft ++ [(Token.closeParen, closed)]) := by
      have regrouped : before ++ (Token.openParen, opened) :: (draft ++ frame.waiting) ++
            [(Token.closeParen, closed)] =
          (before ++ (Token.openParen, opened) :: draft) ++
            (frame.waiting ++ [(Token.closeParen, closed)]) := by
        simp
      rw [regrouped] at nodup ⊢
      rw [dropping_middle _ nodup fun position => (Frame.ignored_abandon frame position).1,
        dropping_eq_nil fun position => (Frame.ignored_abandon frame position).2]
      simp
    have nodup' := nodup_dropping (ignored frame.abandon.2) nodup
    rw [ignored_append, dropping_dropping, dropped]
    rw [dropped] at nodup'
    have isExpression := kept.isExpression
    have reads := kept.reads
    rw [depth_eq] at isExpression reads
    cases empty : frame.fold.isEmpty with
    | true =>
      rw [empty] at isExpression
      rw [Fold.finish_of_isEmpty empty, Frame.resolve_none]
      exact rest.emptyGroup nodup' room isExpression
    | false =>
      rw [empty] at isExpression
      obtain ⟨node, finished⟩ := Fold.exists_finish default empty
      rw [finished, Frame.resolve_some]
      refine rest.accept nodup' ?_ ?_
      · simpa using IsOperand.parens room isExpression
      · simpa using reads.parens room finished

/-! ### Steps -/

/-- The tokens that wait in a frame have been kept. -/
theorem Drafts.mem_of_waiting (drafts : Drafts default frame outer all) :
    ∀ open' ∈ frame :: outer, ∀ position ∈ open'.waiting.map Prod.snd,
      position ∈ all.map Prod.snd := by
  induction drafts with
  | outermost _ _ =>
    intro open' member position waits
    obtain rfl : open' = _ := by simpa using member
    simp only [List.map_append, List.mem_append]
    exact .inr waits
  | inside _ _ _ _ _ ih =>
    intro open' member position waits
    simp only [List.map_append, List.map_cons, List.mem_append, List.mem_cons]
    rcases List.mem_cons.1 member with rfl | inOuter
    · exact .inr (.inr (.inr waits))
    · exact .inl (ih open' inOuter position waits)

/-- A `NOT` that is kept waits behind the others. -/
theorem Drafts.negate (drafts : Drafts default state.frame outer all) (room : ¬state.atLimit) :
    Drafts default { state.frame with negations := state.position :: state.frame.negations }
      outer (all ++ [(.operator .not, state.position)]) := by
  obtain ⟨before, draft, rfl, kept, replace⟩ := drafts.focus
  have below : state.frame.operandDepth < maxDepth := by
    simpa [State.atLimit] using room
  have kept' : Draft default
      { state.frame with negations := state.position :: state.frame.negations } draft := by
    refine ⟨kept.isExpression, kept.reads, ?_⟩
    simp only [Frame.operandDepth, List.length_cons] at below ⊢
    omega
  have negated := replace (by rfl) kept'
  simpa [Frame.waiting, Frame.waitingJoiner, Frame.waitingNegations] using negated

/-- A frame that waits in vain drops nothing of the step itself. -/
theorem Drafts.dropping_abandon {position : Nat} (drafts : Drafts default frame outer all)
    (newest : position ∉ all.map Prod.snd) (token : Token) :
    dropping (ignored frame.abandon.2) (all ++ [(token, position)]) =
      dropping (ignored frame.abandon.2) all ++ [(token, position)] := by
  have stays : dropping (ignored frame.abandon.2) [(token, position)] = [(token, position)] := by
    refine dropping_of_disjoint fun dropped isDropped member => ?_
    obtain rfl : dropped = position := by simpa using member
    exact newest (drafts.mem_of_waiting _ (.head _) _ ((Frame.ignored_abandon _ _).1 isDropped))
  rw [dropping_append, stays]

/-- A right parenthesis outside of all groups is dropped with what waits in front of it. -/
theorem Drafts.stray {position : Nat} (drafts : Drafts default frame [] all)
    (nodup : (all.map Prod.snd).Nodup) (newest : position ∉ all.map Prod.snd) :
    Drafts default frame.abandon.1 []
      (dropping (ignored (frame.abandon.2 ++ [.unmatchedCloseParen position]))
        (all ++ [(.closeParen, position)])) := by
  have waits := drafts.abandon nodup none
  have stray : ignored [.unmatchedCloseParen position] = [position] := rfl
  have stays : dropping [position] (dropping (ignored frame.abandon.2) all) =
      dropping (ignored frame.abandon.2) all := by
    refine dropping_of_disjoint fun dropped isDropped member => ?_
    obtain rfl : dropped = position := by simpa using isDropped
    exact newest ((List.filter_sublist.map Prod.snd).subset member)
  have gone : dropping [position] [(Token.closeParen, position)] = [] := by
    simp [dropping]
  rw [ignored_append, dropping_dropping, drafts.dropping_abandon newest, stray, dropping_append,
    stays, gone]
  exact waits

/-- A step drops the tokens that it records as ignored and keeps all others, its own token
included. -/
theorem Effect.drafts {token : Token} {skipped : Nat}
    (effect : Effect default state token frame outer skipped)
    (drafts : Drafts default state.frame state.outer all) (noneSkipped : state.skipped = 0)
    (keeps : ¬state.Skips token) (nodup : ((all ++ [(token, state.position)]).map Prod.snd).Nodup) :
    Drafts default frame outer
      (dropping (ignored (state.report default token)) (all ++ [(token, state.position)])) := by
  have nodupAll : (all.map Prod.snd).Nodup :=
    nodup.sublist ((List.sublist_append_left ..).map Prod.snd)
  have newest : state.position ∉ all.map Prod.snd := by
    simp only [List.map_append, List.nodup_append] at nodup
    exact fun member => nodup.2.2 _ member _ (by simp) rfl
  cases effect with
  | @key _ text carries =>
    rw [State.report_key carries]
    exact drafts.accept nodup (.key carries) (readsOperand_key carries)
  | skipNot limit => exact absurd ⟨limit, .inr rfl⟩ keeps
  | negate room =>
    rw [State.report, State.depthReport_eq_nil room, ignored_nil, dropping_nil]
    exact drafts.negate room
  | join conjunction =>
    rw [State.report_operator, drafts.dropping_abandon newest]
    exact drafts.abandon nodupAll (some (conjunction, state.position))
  | skipOpen limit => exact absurd ⟨limit, .inl rfl⟩ keeps
  | openGroup room =>
    have below : state.frame.operandDepth < maxDepth := by
      simpa [State.atLimit] using room
    rw [State.report, State.depthReport_eq_nil room, ignored_nil, dropping_nil]
    exact drafts.inside state.position below rfl (draft_fresh below)
  | swallow waiting => omega
  | stray _ outermost =>
    rw [State.report_stray default noneSkipped outermost, outermost]
    rw [outermost] at drafts
    exact drafts.stray nodupAll newest
  | closeGroup _ inside =>
    rw [State.report_closeGroup default noneSkipped inside]
    rw [inside] at drafts
    exact drafts.closeGroup nodup

/-! ### Runs -/

/-- A step ignores its own token or tokens that wait in some frame. -/
theorem State.mem_ignored_report {token : Token} {position : Nat}
    (dropped : position ∈ ignored (state.report default token)) : position = state.position ∨
      ∃ open' ∈ state.frame :: state.outer, position ∈ open'.waiting.map Prod.snd := by
  have depth : position ∉ ignored state.depthReport := by
    unfold depthReport
    split <;> simp [ignored, ignored?]
  have abandoned (waits : position ∈ ignored state.frame.abandon.2) :
      ∃ open' ∈ state.frame :: state.outer, position ∈ open'.waiting.map Prod.snd :=
    ⟨_, .head _, (Frame.ignored_abandon _ _).1 waits⟩
  cases token with
  | term text => exact .inr ⟨_, .head _, Frame.ignored_resolve_subset (some _) _ dropped⟩
  | phrase text => exact .inr ⟨_, .head _, Frame.ignored_resolve_subset (some _) _ dropped⟩
  | operator op =>
    cases op with
    | and => exact .inr (abandoned dropped)
    | or => exact .inr (abandoned dropped)
    | not => exact absurd dropped depth
  | openParen => exact absurd dropped depth
  | closeParen =>
    rw [report, ignored_append, List.mem_append] at dropped
    rcases dropped with dropped | dropped
    · exact .inr (abandoned dropped)
    · unfold closeReport at dropped
      split at dropped
      · simp at dropped
      · split at dropped
        · exact .inl (by simpa [ignored, ignored?] using dropped)
        · next around outer inside =>
          exact .inr ⟨around, by simp [inside], Frame.ignored_resolve_subset _ _ dropped⟩

/-- The end of the tokens ignores tokens that wait in some frame. -/
theorem mem_ignored_endReport {position : Nat}
    (dropped : position ∈ ignored (endReport default frame outer)) :
    ∃ open' ∈ frame :: outer, position ∈ open'.waiting.map Prod.snd := by
  induction outer generalizing frame with
  | nil => exact ⟨frame, .head _, (Frame.ignored_abandon _ _).1 dropped⟩
  | cons around outer ih =>
    have unclosed (rest : List Warning) : ignored (.unclosedGroup :: rest) = ignored rest := rfl
    rw [endReport, ignored_append, unclosed, ignored_append, List.mem_append,
      List.mem_append] at dropped
    rcases dropped with dropped | dropped | dropped
    · exact ⟨frame, .head _, (Frame.ignored_abandon _ _).1 dropped⟩
    · exact ⟨around, by simp, Frame.ignored_resolve_subset _ _ dropped⟩
    · obtain ⟨open', member, waits⟩ := ih dropped
      rcases List.mem_cons.1 member with rfl | inOuter
      · -- the frame around the closed one waits for nothing any more
        simp [Frame.waiting_resolve] at waits
      · exact ⟨open', .tail _ (.tail _ inOuter), waits⟩

/-- What is left of some tokens when those that were recorded as ignored are dropped. -/
def kept (warnings : List Warning) (tokens : List Token) : List (Token × Nat) :=
  dropping (ignored warnings) tokens.zipIdx

theorem lt_of_mem_kept {warnings : List Warning} {tokens : List Token} :
    ∀ position ∈ (kept warnings tokens).map Prod.snd, position < tokens.length := by
  intro position member
  obtain ⟨⟨token, index⟩, inside, rfl⟩ := List.mem_map.1 member
  have bound := List.snd_lt_of_mem_zipIdx (List.mem_of_mem_filter inside)
  simpa using bound

theorem nodup_kept (warnings : List Warning) (tokens : List Token) :
    ((kept warnings tokens).map Prod.snd).Nodup := by
  refine nodup_dropping _ ?_
  rw [List.zipIdx_map_snd]
  exact List.nodup_range'

/-- The newest token can only be dropped by a warning that came with it. -/
theorem kept_concat {warnings : List Warning} {tokens : List Token}
    (bound : ∀ position ∈ ignored warnings, position < tokens.length) (report : List Warning)
    (token : Token) : kept (report.reverse ++ warnings) (tokens ++ [token]) =
      dropping (ignored report) (kept warnings tokens ++ [(token, tokens.length)]) := by
  have same (all : List (Token × Nat)) : dropping (ignored (report.reverse ++ warnings)) all =
      dropping (ignored warnings ++ ignored report) all := by
    refine dropping_congr fun position => ?_
    rw [ignored_append, List.mem_append, List.mem_append, mem_ignored_reverse, or_comm]
  have stays : dropping (ignored warnings) [(token, tokens.length)] =
      [(token, tokens.length)] := by
    refine dropping_of_disjoint fun position dropped member => ?_
    obtain rfl : position = tokens.length := by simpa using member
    exact Nat.lt_irrefl _ (bound _ dropped)
  rw [kept, same, dropping_dropping, List.zipIdx_append, dropping_append, ← kept]
  simp [stays]

/-- The parser has kept all tokens that it has not recorded as ignored. -/
structure State.Keeps (default : Conjunction) (tokens : List Token) (state : State) : Prop where
  /-- Each of them is in the draft of a frame, or waits there. -/
  drafts : Drafts default state.frame state.outer (kept state.warnings tokens)
  /-- Only tokens that were taken have been ignored. -/
  bound : ∀ position ∈ ignored state.warnings, position < tokens.length

theorem State.Keeps.step {tokens : List Token} {token : Token} (keeps : state.Keeps default tokens)
    (position_eq : state.position = tokens.length) (noneSkipped : state.skipped = 0)
    (room : ¬state.Skips token) : (step default state token).Keeps default (tokens ++ [token]) := by
  have nodup : ((kept state.warnings tokens ++ [(token, state.position)]).map Prod.snd).Nodup := by
    rw [List.map_append, List.nodup_append]
    refine ⟨nodup_kept _ _, by simp, fun position member last isLast => ?_⟩
    have earlier := lt_of_mem_kept position member
    simp only [List.map_cons, List.map_nil, List.mem_singleton] at isLast
    omega
  constructor
  · rw [step_warnings, kept_concat keeps.bound, ← position_eq]
    exact (step_effect default state token).drafts keeps.drafts noneSkipped room nodup
  · intro position dropped
    rw [step_warnings, ignored_append, List.mem_append, mem_ignored_reverse] at dropped
    rw [List.length_append, List.length_singleton]
    rcases dropped with reported | before
    · rcases State.mem_ignored_report reported with rfl | ⟨open', member, waits⟩
      · omega
      · have earlier := lt_of_mem_kept position (keeps.drafts.mem_of_waiting open' member _ waits)
        omega
    · have earlier := keeps.bound position before
      omega

theorem keeps_run {tokens : List Token}
    (limited : (run default .initial tokens).limited = false) :
    (run default .initial tokens).Keeps default tokens := by
  have start : State.initial.Keeps default [] :=
    ⟨.outermost rfl (draft_fresh (Nat.zero_le _)), by simp [State.initial]⟩
  exact run_keeps_of_unlimited start (fun tokens state token position_eq noneSkipped room keeps =>
    keeps.step position_eq noneSkipped room) limited

end SearchKeys.Parser
