/-
# Written trees that nest too deep

A written tree that nests deeper than the parser allows does not go unnoticed: some token of
it is skipped, and the first one of these is recorded for good.

## Main definitions

* `Parser.State.Noted`: a token was skipped and a warning says so.

## Main results

* `Parser.noted_run_tokens`: reading a tree that nests too deep is noted.
* `Parser.parse_tokens_nested_ne`, `Parser.parse_tokens_ne`: so its parse has warnings.
-/

import SearchKeys.Proofs.Query.Reading

namespace SearchKeys.Parser

variable {default conjunction : Conjunction} {state : State} {frame : Frame} {outer : List Frame}
  {depth : Nat} {fold : Fold}

/-! ### Warnings stay -/

/-- A token was skipped because of its depth, and this is on record. -/
def State.Noted (state : State) : Prop :=
  state.limited = true ∧ state.warnings ≠ []

private theorem State.Noted.record {found : List Warning} (noted : state.Noted) :
    (state.record found).Noted :=
  ⟨noted.1, by simp [State.record, noted.2]⟩

private theorem State.Noted.resolve (noted : state.Noted) (default : Conjunction)
    (operand : Option Node) : (state.resolve default operand).Noted := by
  have moved : ({ state with frame := (state.frame.resolve default operand).1 } : State).Noted :=
    noted
  exact moved.record

private theorem State.Noted.skip (noted : state.Noted) : state.skip.Noted := by
  simpa [State.skip, noted.1] using noted

/-- What was noted stays noted. -/
theorem State.Noted.step {token : Token} (noted : state.Noted) :
    (step default state token).Noted := by
  show (state.take default token).Noted
  have closed : ((state.resolve default none).closeGroup default).Noted := by
    have resolved := noted.resolve default none
    unfold State.closeGroup
    split
    · exact resolved
    · split
      · exact resolved.record
      · next around outer _ =>
        have moved : ({ state.resolve default none with
            frame := around, outer := outer } : State).Noted := resolved
        exact moved.resolve default _
  cases token with
  | term text => exact noted.resolve default _
  | phrase text => exact noted.resolve default _
  | operator op =>
    cases op with
    | and => exact noted.resolve default none
    | or => exact noted.resolve default none
    | not =>
      simp only [State.take, State.negate]
      split
      · exact noted.skip
      · exact noted
  | openParen =>
    simp only [State.take, State.openGroup]
    split
    · exact noted.skip
    · exact noted
  | closeParen => exact closed

theorem State.Noted.run {tokens : List Token} (noted : state.Noted) :
    (run default state tokens).Noted :=
  run_keeps (fun _ _ _ noted => noted.step) noted

private theorem closeAll_ne_nil {warnings : List Warning} (recorded : warnings ≠ []) :
    (State.closeAll default frame warnings outer).2 ≠ [] := by
  induction outer generalizing frame warnings with
  | nil => simp [State.closeAll, recorded]
  | cons around outer ih =>
    rw [State.closeAll]
    exact ih (by simp)

/-- What was noted is among the warnings of the parse. -/
theorem State.Noted.finish (noted : state.Noted) : (state.finish default).warnings ≠ [] := by
  simpa [State.finish] using closeAll_ne_nil noted.2

/-! ### Skipping is noted -/

private theorem noted_skip (unlimited : state.limited = false) : state.skip.Noted := by
  simp [State.skip, unlimited, State.Noted, State.record]

theorem noted_step_not (limit : maxDepth ≤ state.frame.operandDepth)
    (unlimited : state.limited = false) : (step default state (.operator .not)).Noted := by
  have atLimit : state.atLimit = true := State.atLimit_iff.2 limit
  have skipped := noted_skip unlimited
  simpa [step, State.take, State.negate, atLimit, State.Noted] using skipped

theorem noted_step_openParen (limit : maxDepth ≤ state.frame.operandDepth)
    (unlimited : state.limited = false) : (step default state .openParen).Noted := by
  have atLimit : state.atLimit = true := State.atLimit_iff.2 limit
  have skipped := noted_skip unlimited
  simpa [step, State.take, State.openGroup, atLimit, State.Noted] using skipped

/-- Reading a tree that nests too deep is noted, from every state that could still read it. -/
def NotesDepth (default : Conjunction) (node : Node) : Prop :=
  ∀ state : State, maxDepth < state.frame.operandDepth + node.height →
    state.frame.operandDepth ≤ maxDepth → state.skipped = 0 → state.limited = false →
    (run default state (node.tokens true)).Noted

/-- Of the members behind an operator, the first one that nests too deep is noted. -/
theorem noted_run_tokensBehind (conjunction : Conjunction) {members : List Node}
    (wellFormed : ∀ member ∈ members, member.WellFormed 2)
    (notes : ∀ member ∈ members, NotesDepth default member)
    (deep : ∃ member ∈ members, maxDepth < depth + member.height) (shallow : depth ≤ maxDepth)
    (noneSkipped : state.skipped = 0) (unlimited : state.limited = false)
    (notEmpty : fold.isEmpty = false) (resting : state.frame = ⟨depth, fold, none, []⟩) :
    (run default state (Node.tokensBehind conjunction members)).Noted := by
  induction members generalizing state fold with
  | nil => simp at deep
  | cons member members ih =>
    obtain ⟨wellFormedFirst, wellFormedOthers⟩ := List.forall_mem_cons.1 wellFormed
    obtain ⟨notesFirst, notesOthers⟩ := List.forall_mem_cons.1 notes
    have joined := step_operator default conjunction resting
    have operandDepth :
        (step default state (.operator (.ofConjunction conjunction))).frame.operandDepth =
          depth := by
      simp [joined, Frame.operandDepth]
    rw [Node.tokensBehind, List.flatMap_cons, List.cons_append, run_cons, run_append,
      ← Node.tokensBehind]
    -- up to the first member that nests too deep, all of them are read as they were written
    by_cases deepFirst : maxDepth < depth + member.height
    · exact (notesFirst _ (by omega) (by omega) (by rw [joined]; exact noneSkipped)
        (by rw [joined]; exact unlimited)).run
    · have taken := took_behind_operator default member
        (member.tokens true).length state.position notEmpty (congrArg State.frame joined)
      obtain ⟨other, inside, deepOther⟩ := deep
      have inMembers : other ∈ members := by
        rcases List.mem_cons.1 inside with rfl | inMembers
        · exact absurd deepOther deepFirst
        · exact inMembers
      rw [run_tokens wellFormedFirst _ (by omega) (by rw [joined]; exact noneSkipped)]
      exact ih wellFormedOthers notesOthers ⟨other, inMembers, deepOther⟩
        (by rw [taken, joined]; exact noneSkipped) (by rw [taken, joined]; exact unlimited)
        (Fold.isEmpty_combine ..) (congrArg State.frame taken)

/-- If a member of a group nests too deep, reading the members is noted. -/
theorem noted_run_members (conjunction : Conjunction) {first second : Node} {rest : List Node}
    (wellFormed : ∀ member ∈ first :: second :: rest, member.WellFormed 2)
    (notes : ∀ member ∈ first :: second :: rest, NotesDepth default member)
    (deep : ∃ member ∈ first :: second :: rest, maxDepth < depth + member.height)
    (shallow : depth ≤ maxDepth) (noneSkipped : state.skipped = 0)
    (unlimited : state.limited = false) (fresh : state.frame = .fresh depth) :
    (run default state
      (first.tokens true ++ Node.tokensBehind conjunction (second :: rest))).Noted := by
  have operandDepth : state.frame.operandDepth = depth := by
    simp [fresh, Frame.operandDepth, Frame.fresh]
  obtain ⟨wellFormedFirst, wellFormedOthers⟩ := List.forall_mem_cons.1 wellFormed
  obtain ⟨notesFirst, notesOthers⟩ := List.forall_mem_cons.1 notes
  rw [run_append]
  by_cases deepFirst : maxDepth < depth + first.height
  · exact (notesFirst _ (by omega) (by omega) noneSkipped unlimited).run
  · have taken := took_fresh default first (first.tokens true).length fresh
    obtain ⟨other, inside, deepOther⟩ := deep
    have inOthers : other ∈ second :: rest := by
      rcases List.mem_cons.1 inside with rfl | inOthers
      · exact absurd deepOther deepFirst
      · exact inOthers
    rw [run_tokens wellFormedFirst _ (by omega) noneSkipped]
    have noneSkipped' : (state.took default first (first.tokens true).length).skipped = 0 :=
      noneSkipped
    have unlimited' : (state.took default first (first.tokens true).length).limited = false :=
      unlimited
    exact noted_run_tokensBehind conjunction wellFormedOthers notesOthers
      ⟨other, inOthers, deepOther⟩ shallow noneSkipped' unlimited' rfl
      (congrArg State.frame taken)

/-- Reading a written tree that nests too deep where it stands is noted. -/
theorem noted_run_tokens {node : Node} (wellFormed : node.WellFormed 2) :
    NotesDepth default node := by
  induction wellFormed with
  | keys text =>
    intro state deep shallow _ _
    rw [Node.height_keys] at deep
    omega
  | @not child _ ih =>
    intro state deep shallow noneSkipped unlimited
    rw [Node.tokens_not, run_cons]
    rw [Node.height_not] at deep
    by_cases limit : maxDepth ≤ state.frame.operandDepth
    · exact (noted_step_not limit unlimited).run
    · have below : state.frame.operandDepth < maxDepth := by omega
      have negated := step_not default below
      have operandDepth : (step default state (.operator .not)).frame.operandDepth =
          state.frame.operandDepth + 1 := by
        simp only [negated, Frame.operandDepth, List.length_cons]
        omega
      exact ih _ (by omega) (by omega) (by rw [negated]; exact noneSkipped)
        (by rw [negated]; exact unlimited)
  | @group conjunction children enough inner ih =>
    intro state deep shallow noneSkipped unlimited
    obtain ⟨first, second, rest, rfl⟩ := Node.exists_cons_cons enough
    rw [(Node.tokens_group ..).1, List.cons_append, run_cons, run_append]
    by_cases limit : maxDepth ≤ state.frame.operandDepth
    · exact (noted_step_openParen limit unlimited).run.run
    · have below : state.frame.operandDepth < maxDepth := by omega
      have opened := step_openParen default below
      have deepInside : ∃ member ∈ first :: second :: rest,
          maxDepth < state.frame.operandDepth + 1 + member.height := by
        by_contra none
        push Not at none
        have lower := (Node.height_group_le_iff conjunction false (first :: second :: rest)
          (maxDepth - state.frame.operandDepth - 1)).2
          fun child member => by have := none child member; omega
        omega
      exact (noted_run_members conjunction inner ih deepInside (by omega)
        (by rw [opened]; exact noneSkipped) (by rw [opened]; exact unlimited)
        (congrArg State.frame opened)).run

/-- The parse of a nested tree that nests too deep has warnings. -/
theorem parse_tokens_nested_ne (default : Conjunction) {node : Node}
    (wellFormed : node.WellFormed 2) (deep : maxDepth < node.height) :
    (parse default (node.tokens true)).warnings ≠ [] := by
  refine (noted_run_tokens wellFormed .initial ?_ (Nat.zero_le _) rfl rfl).finish
  simpa [State.initial, Frame.fresh, Frame.operandDepth] using deep

/-- The parse of an outermost tree that nests too deep has warnings. -/
theorem parse_tokens_ne (default : Conjunction) {node : Node} (wellFormed : node.WellFormed 2)
    (deep : maxDepth < node.nesting) : (parse default (node.tokens false)).warnings ≠ [] := by
  cases wellFormed with
  | keys text => simp [Node.nesting, Node.isNegation] at deep
  | @not child inner =>
    rw [Node.tokens_not, ← Node.tokens_not true]
    exact parse_tokens_nested_ne default (.not inner) deep
  | @group conjunction children enough inner =>
    obtain ⟨first, second, rest, rfl⟩ := Node.exists_cons_cons enough
    have deepInside : ∃ member ∈ first :: second :: rest, maxDepth < 0 + member.height := by
      by_contra none
      push Not at none
      have lower := (Node.height_group_le_iff conjunction false (first :: second :: rest)
        maxDepth).2 fun child member => by have := none child member; omega
      have higher : maxDepth <
          (Node.group conjunction false (first :: second :: rest)).height - 1 := deep
      omega
    rw [(Node.tokens_group ..).2]
    exact (noted_run_members conjunction inner
      (fun child member => noted_run_tokens (inner child member)) deepInside (Nat.zero_le _)
      rfl rfl rfl).finish

end SearchKeys.Parser
