/-
# What the warnings of a parse name

The parser has a frame for each group that it kept and a number for the parentheses that it
skipped, and it takes right parentheses for those of skipped ones first. Still its warnings about
parentheses are those of ordinary matching, for the frames and the number together are always as
many as the parentheses that are open. An operator that is reported is one that waited for an
operand in some frame, and each of them waits only once.

## Main definitions

* `unopened`, `unclosed`: the parentheses without a partner.
* `Parser.Diagnosis`: what warnings say about tokens.

## Main results

* `Parser.filterMap_report`: what a token adds to the record, apart from operators.
* `Parser.skipped_add_length_outer`: the open parentheses are skipped or have a frame.
* `Parser.isSkipped_iff_unchanged`: what it means that a token is skipped.
* `Parser.count_dangling_run`: an operator is reported or waits, and not more than once.
* `Parser.diagnosis_parse`: what the warnings of a parse say about its tokens.
-/

import SearchKeys.Proofs.Query.Depth
import SearchKeys.Proofs.Query.Mend
import SearchKeys.Proofs.Query.Skipping

namespace SearchKeys

/-! ### Parentheses without a partner -/

/-- The positions of the right parentheses that match no left one. -/
def unopened (tokens : List Token) : List Nat :=
  (List.range tokens.length).filter fun close =>
    tokens[close]? = some .closeParen ∧ opening? tokens close = none

/-- The positions of the left parentheses that no right one matches. -/
def unclosed (tokens : List Token) : List Nat :=
  (List.range tokens.length).filter fun left =>
    tokens[left]? = some .openParen ∧ ∀ close < tokens.length, left ∉ opening? tokens close

theorem opening?_eq_none_iff {tokens : List Token} {close : Nat}
    (here : tokens[close]? = some .closeParen) :
    opening? tokens close = none ↔ opened (tokens.take close) = [] := by
  rw [opening?, if_pos here, List.head?_eq_none_iff]

/-- The parentheses that are open at the end are those that are never closed. -/
theorem length_unclosed (tokens : List Token) :
    (unclosed tokens).length = (opened tokens).length := by
  have nodup : (opened tokens).Nodup :=
    (pairwise_opened tokens).imp fun later => Nat.ne_of_gt later
  have nodup' : (unclosed tokens).Nodup := List.nodup_range.filter _
  refine ((List.perm_ext_iff_of_nodup nodup' nodup).2 fun left => ?_).length_eq
  have inside : left ∈ opened (tokens.take tokens.length) ↔ _ :=
    mem_opened_take_iff (Nat.le_refl _)
  rw [List.take_length] at inside
  rw [inside]
  simp [unclosed]

namespace Warning

/-- The position of the right parenthesis that the warning says has no partner. -/
def unmatched? : Warning → Option Nat
  | unmatchedCloseParen token => some token
  | _ => none

/-- The position of the token that the warning says would nest too deep. -/
def tooDeep? : Warning → Option Nat
  | nestingTooDeep token => some token
  | _ => none

/-- The operator that the warning says lacks an operand, as a token with its position. -/
def dangling? : Warning → Option (Token × Nat)
  | danglingOperator operator token => some (.operator operator, token)
  | _ => none

theorem mem_dangling {warnings : List Warning} {operator : Operator} {position : Nat} :
    (.operator operator, position) ∈ warnings.filterMap dangling? ↔
      .danglingOperator operator position ∈ warnings := by
  rw [List.mem_filterMap]
  constructor
  · rintro ⟨warning, member, names⟩
    cases warning <;> cases names
    exact member
  · exact fun member => ⟨_, member, rfl⟩

end Warning

namespace Parser

open Warning

/-- Warnings are exact about the parentheses and the depth of tokens, and true about operators.
What they name for its depth is the first left parenthesis or `NOT` that changes no group and no
negation. -/
structure Diagnosis (default : Conjunction) (tokens : List Token) (warnings : List Warning) :
    Prop where
  /-- They name the right parentheses without a partner, in their order. -/
  unmatched_eq : warnings.filterMap unmatched? = unopened tokens
  /-- Not more groups are left open than can be nested. -/
  count_unclosed_le : warnings.count .unclosedGroup ≤ maxDepth
  /-- If nothing nests too deep, they are the left parentheses without a partner. -/
  count_unclosed_eq : (∀ position, .nestingTooDeep position ∉ warnings) →
    warnings.count .unclosedGroup = (unclosed tokens).length
  /-- An operator that lacks an operand stands where they say. -/
  dangling : ∀ operator position, .danglingOperator operator position ∈ warnings →
    tokens[position]? = some (.operator operator)
  /-- No two of them name the same place for that. -/
  nodup_dangling : ((warnings.filterMap dangling?).map Prod.snd).Nodup
  /-- They name the first token that is skipped for its depth, and only this one. -/
  tooDeep_eq : warnings.filterMap tooDeep? =
    ((List.range tokens.length).find? (IsSkipped default tokens ·)).toList
  /-- The tokens that are skipped are the left parentheses that open no group and the `NOT`s that
  negate nothing: they leave all frames as they are. -/
  isSkipped_iff : ∀ position token, tokens[position]? = some token →
    token = .openParen ∨ token = .operator .not → (IsSkipped default tokens position ↔
      (stateAt default tokens (position + 1)).frame = (stateAt default tokens position).frame ∧
      (stateAt default tokens (position + 1)).outer = (stateAt default tokens position).outer)

variable {default : Conjunction} {tokens : List Token} {state : State} {frame : Frame}
  {outer : List Frame} {token : Token} {position : Nat}

/-! ### Reports -/

section Others

variable {α : Type} {named : Warning → Option α}
  (others : ∀ operator position, named (.danglingOperator operator position) = none)

include others

theorem Frame.filterMap_resolve (default : Conjunction) (operand : Option Node) (frame : Frame) :
    (frame.resolve default operand).2.filterMap named = [] := by
  refine List.filterMap_eq_nil_iff.2 fun warning member => ?_
  obtain ⟨operator, position, rfl⟩ := exists_of_mem_resolve member
  exact others operator position

/-- Apart from operators, a token is reported if it is the first one to be skipped, or a right
parenthesis outside of all groups, skipped ones included. -/
theorem filterMap_report : (state.report default token).filterMap named =
    (if state.Skips token ∧ state.limited = false then [.nestingTooDeep state.position]
    else if token = .closeParen ∧ state.skipped = 0 ∧ state.outer = [] then
      [.unmatchedCloseParen state.position]
    else []).filterMap named := by
  have resolved (operand : Option Node) (frame : Frame) :=
    Frame.filterMap_resolve others default operand frame
  match token with
  | .term text => simpa [State.report, State.Skips] using resolved (some (.keys text)) state.frame
  | .phrase text => simpa [State.report, State.Skips] using resolved (some (.keys text)) state.frame
  | .operator .and => simpa [State.report, State.Skips] using resolved none state.frame
  | .operator .or => simpa [State.report, State.Skips] using resolved none state.frame
  | .operator .not => simp [State.report, State.depthReport, State.Skips]
  | .openParen => simp [State.report, State.depthReport, State.Skips]
  | .closeParen =>
    have abandoned : state.frame.abandon.2.filterMap named = [] := resolved none _
    rw [State.report, List.filterMap_append, abandoned, List.nil_append, State.closeReport]
    by_cases waiting : 0 < state.skipped
    · simp [waiting, State.Skips, Nat.ne_of_gt waiting]
    · have noneSkipped : state.skipped = 0 := by omega
      cases inside : state.outer with
      | nil => simp [noneSkipped, State.Skips]
      | cons around outer =>
        simpa [noneSkipped, State.Skips] using
          resolved (state.frame.fold.finish default) around

/-- The end of the tokens reports operators and groups that are still open, and nothing else. -/
theorem filterMap_endReport (groups : named .unclosedGroup = none) (frame : Frame)
    (outer : List Frame) : (endReport default frame outer).filterMap named = [] := by
  induction outer generalizing frame with
  | nil => exact Frame.filterMap_resolve others default none frame
  | cons around outer ih =>
    have abandoned : frame.abandon.2.filterMap named = [] :=
      Frame.filterMap_resolve others default none frame
    rw [endReport, List.filterMap_append, List.filterMap_cons_none groups, List.filterMap_append,
      abandoned, Frame.filterMap_resolve others, ih]
    rfl

/-- So only what its steps report is told apart in the warnings of a parse. -/
theorem filterMap_warnings_parse (groups : named .unclosedGroup = none) :
    (parse default tokens).warnings.filterMap named =
      (stateAt default tokens tokens.length).warnings.reverse.filterMap named := by
  rw [parse, finish_warnings, List.filterMap_append, filterMap_endReport others groups,
    List.append_nil, stateAt, List.take_length]

end Others

/-! ### Parentheses -/

theorem Effect.skipped_add_length_outer {skipped : Nat} {inside : List Nat}
    (effect : Effect default state token frame outer skipped)
    (before : state.skipped + state.outer.length = inside.length) :
    skipped + outer.length = (token.bracket position inside).length := by
  cases effect with
  | key carries => rwa [Token.bracket_of_key carries]
  | skipNot limit => exact before
  | negate room => exact before
  | join conjunction => exact before
  | skipOpen limit =>
    rw [Token.bracket, List.length_cons]
    omega
  | openGroup room =>
    rw [Token.bracket, List.length_cons, List.length_cons]
    omega
  | swallow waiting =>
    rw [Token.bracket, List.length_tail]
    omega
  | stray noneSkipped outermost =>
    rw [Token.bracket, List.length_tail, ← before, noneSkipped, outermost]
    rfl
  | closeGroup noneSkipped around =>
    rw [around, List.length_cons] at before
    rw [Token.bracket, List.length_tail]
    omega

/-- Each parenthesis that is open is a skipped one, or it has a frame around the innermost. -/
theorem skipped_add_length_outer (default : Conjunction) (tokens : List Token) :
    (run default .initial tokens).skipped + (run default .initial tokens).outer.length =
      (opened tokens).length := by
  induction tokens using List.reverseRecOn with
  | nil => rfl
  | append_singleton before token ih =>
    rw [run_concat, opened_concat]
    exact (step_effect default _ token).skipped_add_length_outer ih

theorem stateAt_position (bound : position ≤ tokens.length) :
    (stateAt default tokens position).position = position := by
  rw [stateAt, run_initial_position, List.length_take_of_le bound]

/-- The parser is outside of all groups, skipped ones included, exactly if no parenthesis is
open. -/
theorem outside_iff (default : Conjunction) (tokens : List Token) (position : Nat) :
    (stateAt default tokens position).skipped = 0 ∧ (stateAt default tokens position).outer = [] ↔
      opened (tokens.take position) = [] := by
  rw [← List.length_eq_zero_iff, ← List.length_eq_zero_iff, ← skipped_add_length_outer default,
    Nat.add_eq_zero_iff, stateAt]

/-- What a token adds to the record, apart from operators, in terms of the tokens: the first one
that is skipped is reported, and so is a right parenthesis without a partner. -/
theorem filterMap_warnings_succ {α : Type} {named : Warning → Option α}
    (others : ∀ operator position, named (.danglingOperator operator position) = none)
    (bound : position < tokens.length) :
    (stateAt default tokens (position + 1)).warnings.reverse.filterMap named =
      (stateAt default tokens position).warnings.reverse.filterMap named ++
        (if IsSkipped default tokens position ∧
            (stateAt default tokens position).limited = false then [.nestingTooDeep position]
        else if tokens[position]? = some .closeParen ∧ opening? tokens position = none then
          [.unmatchedCloseParen position]
        else []).filterMap named := by
  have here := List.getElem?_eq_getElem bound
  have skips := isSkipped_iff default here
  have unpartnered : tokens[position] = .closeParen ∧
      (stateAt default tokens position).skipped = 0 ∧
        (stateAt default tokens position).outer = [] ↔
      tokens[position]? = some .closeParen ∧ opening? tokens position = none := by
    rw [outside_iff, here, Option.some_inj]
    exact and_congr_right fun isClose => (opening?_eq_none_iff (isClose ▸ here)).symm
  rw [stateAt_succ default here, step_warnings, List.reverse_append, List.reverse_reverse,
    List.filterMap_append, filterMap_report others, stateAt_position (Nat.le_of_lt bound)]
  congr 2
  exact if_congr (and_congr_left' skips.symm) rfl (if_congr unpartnered rfl rfl)

/-- So far, exactly the right parentheses without a partner have been reported. -/
theorem unmatched_stateAt (bound : position ≤ tokens.length) :
    (stateAt default tokens position).warnings.reverse.filterMap unmatched? =
      (List.range position).filter fun close =>
        tokens[close]? = some .closeParen ∧ opening? tokens close = none := by
  induction position with
  | zero => rfl
  | succ position ih =>
    rw [filterMap_warnings_succ (fun _ _ => rfl) bound, ih (Nat.le_of_succ_le bound),
      List.range_succ, List.filter_append, List.filter_singleton]
    congr 1
    by_cases partnerless : tokens[position]? = some .closeParen ∧ opening? tokens position = none
    · -- a right parenthesis is not skipped for its depth
      have taken : ¬IsSkipped default tokens position := by
        rintro ⟨token, here, _, rfl | rfl⟩ <;> simp [Option.mem_def.1 here] at partnerless
      simp [taken, partnerless, unmatched?]
    · simp only [partnerless, if_false, decide_false, cond_false]
      split <;> rfl

/-- A left parenthesis or a `NOT` is skipped exactly if it opens and negates nothing. -/
theorem isSkipped_iff_unchanged (default : Conjunction) (here : tokens[position]? = some token)
    (nests : token = .openParen ∨ token = .operator .not) :
    IsSkipped default tokens position ↔
      (stateAt default tokens (position + 1)).frame = (stateAt default tokens position).frame ∧
      (stateAt default tokens (position + 1)).outer = (stateAt default tokens position).outer := by
  rw [isSkipped_iff default here, stateAt_succ default here]
  constructor
  · exact fun skips => skips.step default
  · rintro ⟨frame_eq, outer_eq⟩
    refine ⟨?_, nests⟩
    by_contra room
    rcases nests with rfl | rfl
    · -- there would be one more frame
      have longer := congrArg List.length outer_eq
      simp [step, State.take, State.openGroup, room] at longer
    · -- one more negation would wait
      have longer := congrArg (fun frame => frame.negations.length) frame_eq
      simp [step, State.take, State.negate, room] at longer

/-- A token has been skipped in front of a position exactly if a skipped one is found there. -/
theorem limited_stateAt (default : Conjunction) (bound : position ≤ tokens.length) :
    (stateAt default tokens position).limited =
      ((List.range position).find? (IsSkipped default tokens ·)).isSome := by
  induction position with
  | zero => rfl
  | succ position ih =>
    have here := List.getElem?_eq_getElem bound
    rw [Bool.eq_iff_iff, stateAt_succ default here, step_limited_iff, ← isSkipped_iff default here,
      ih (Nat.le_of_succ_le bound), List.range_succ, List.find?_append]
    simp

/-- So far, exactly the first token that was skipped has been reported as nesting too deep. -/
theorem tooDeep_stateAt (bound : position ≤ tokens.length) :
    (stateAt default tokens position).warnings.reverse.filterMap tooDeep? =
      ((List.range position).find? (IsSkipped default tokens ·)).toList := by
  induction position with
  | zero => rfl
  | succ position ih =>
    have limited := limited_stateAt default (Nat.le_of_succ_le bound)
    rw [filterMap_warnings_succ (fun _ _ => rfl) bound, ih (Nat.le_of_succ_le bound), limited,
      List.range_succ, List.find?_append]
    cases first : (List.range position).find? (IsSkipped default tokens ·) with
    | none =>
      by_cases skipped : IsSkipped default tokens position
      · simp [skipped, tooDeep?]
      · rw [if_neg (by simp [skipped])]
        split <;> simp [skipped, tooDeep?]
    | some earlier =>
      rw [if_neg (by simp)]
      split <;> simp [tooDeep?]

/-! ### Groups that are left open -/

/-- Every frame stands below the one around it. -/
theorem HasRead.length_outer_le {left : Option Expression} {lefts : List (Option Expression)}
    (hasRead : HasRead default frame outer left lefts) : outer.length ≤ frame.depth := by
  induction hasRead with
  | outermost _ => exact Nat.zero_le _
  | inside _ depth_eq _ ih =>
    rw [List.length_cons, depth_eq, Frame.operandDepth]
    omega

theorem length_outer_run_le (default : Conjunction) (tokens : List Token) :
    (run default .initial tokens).outer.length ≤ maxDepth := by
  have hasRead : HasRead default _ _ _ _ := hasRead_run tokens ⟨none, []⟩ hasRead_initial
  calc (run default .initial tokens).outer.length
      ≤ (run default .initial tokens).frame.depth := hasRead.length_outer_le
    _ ≤ (run default .initial tokens).frame.operandDepth := Nat.le_add_right ..
    _ ≤ maxDepth := hasRead.here.operandDepth_le

/-! ### Operators without an operand -/

/-- What a frame reports when no operand follows is what waits in it. -/
theorem Frame.filterMap_abandon (frame : Frame) :
    (frame.abandon.2.filterMap dangling?).Perm frame.waiting := by
  have negations : (frame.negations.map (danglingOperator .not)).filterMap dangling? =
      frame.negations.map (Prod.mk (.operator .not)) := by
    rw [List.filterMap_map, ← List.filterMap_eq_map]
    rfl
  have reported : frame.abandon.2.filterMap dangling? =
      frame.negations.map (Prod.mk (.operator .not)) ++ frame.waitingJoiner := by
    rw [abandon, List.filterMap_append, negations, waitingJoiner]
    cases frame.joiner <;> rfl
  rw [reported, waiting, waitingNegations, List.map_reverse]
  exact List.perm_append_comm.trans ((List.reverse_perm _).symm.append_left _)

/-- Whether or not an operand follows, a frame reports only what waits in it. -/
theorem Frame.count_resolve_le (default : Conjunction) (operand : Option Node) (frame : Frame)
    (entry : Token × Nat) :
    ((frame.resolve default operand).2.filterMap dangling?).count entry ≤
      frame.waiting.count entry := by
  cases operand with
  | none => exact Nat.le_of_eq (frame.filterMap_abandon.count_eq entry)
  | some node =>
    rw [resolve_some, accept, waiting, waitingJoiner, List.count_append]
    cases frame.joiner with
    | none => exact Nat.zero_le _
    | some joiner =>
      by_cases empty : frame.fold.isEmpty
      · simp only [empty, if_true]
        exact Nat.le_add_right ..
      · simp [empty]

/-- Of the tokens so far, an operator that a step reports waited in some frame, and what waits
behind the step either waited before or is the token itself. -/
theorem Effect.count_dangling_add_le {skipped : Nat}
    (effect : Effect default state token frame outer skipped) (entry : Token × Nat) :
    ((state.report default token).filterMap dangling?).count entry +
        ((frame :: outer).flatMap Frame.waiting).count entry ≤
      ((state.frame :: state.outer).flatMap Frame.waiting).count entry +
        [(token, state.position)].count entry := by
  have abandoned := state.frame.filterMap_abandon.count_eq entry
  have depth : state.depthReport.filterMap dangling? = [] := by
    unfold State.depthReport
    split <;> rfl
  simp only [List.flatMap_cons, List.count_append]
  cases effect with
  | @key _ text carries =>
    have accepted := state.frame.count_resolve_le default (some (.keys text)) entry
    have waits : (state.frame.accept default (.keys text)).1.waiting = [] :=
      Frame.waiting_resolve (some _) state.frame
    rw [Frame.resolve_some] at accepted
    rw [State.report_key carries, waits, List.count_nil]
    omega
  | skipNot limit =>
    rw [State.report, depth, List.count_nil]
    omega
  | negate room =>
    have waits : ({ state.frame with negations := state.position :: state.frame.negations } :
        Frame).waiting = state.frame.waiting ++ [(.operator .not, state.position)] := by
      simp [Frame.waiting, Frame.waitingJoiner, Frame.waitingNegations]
    rw [State.report, depth, List.count_nil, waits, List.count_append]
    omega
  | join conjunction =>
    have waits : (⟨state.frame.depth, state.frame.fold, some (conjunction, state.position), []⟩ :
        Frame).waiting = [(.operator (.ofConjunction conjunction), state.position)] := rfl
    rw [State.report_operator, waits, abandoned]
    omega
  | skipOpen limit =>
    rw [State.report, depth, List.count_nil]
    omega
  | openGroup room =>
    have waits : (Frame.fresh (state.frame.operandDepth + 1)).waiting = [] := rfl
    rw [State.report, depth, waits, List.flatMap_cons, List.count_append, List.count_nil]
    omega
  | swallow waiting =>
    have waits : state.frame.abandon.1.waiting = [] := rfl
    rw [State.report, State.closeReport, if_pos waiting, List.append_nil, waits, abandoned,
      List.count_nil]
    omega
  | stray noneSkipped outermost =>
    have waits : state.frame.abandon.1.waiting = [] := rfl
    have unmatched : [unmatchedCloseParen state.position].filterMap dangling? = [] := rfl
    rw [State.report_stray default noneSkipped outermost, List.filterMap_append, unmatched,
      List.append_nil, waits, abandoned, List.count_nil]
    omega
  | @closeGroup around outer noneSkipped inside =>
    have resolved := around.count_resolve_le default (state.frame.fold.finish default) entry
    rw [State.report_closeGroup default noneSkipped inside, inside, Frame.waiting_resolve,
      List.filterMap_append, List.count_append, abandoned, List.flatMap_cons, List.count_append,
      List.count_nil]
    omega

/-- An operator has been reported or waits, and neither twice nor both. -/
theorem count_dangling_run (default : Conjunction) (tokens : List Token) (entry : Token × Nat) :
    ((run default .initial tokens).warnings.filterMap dangling?).count entry +
        (((run default .initial tokens).frame :: (run default .initial tokens).outer).flatMap
          Frame.waiting).count entry ≤ tokens.zipIdx.count entry := by
  induction tokens using List.reverseRecOn with
  | nil => exact Nat.le_refl _
  | append_singleton before token ih =>
    have taken := (step_effect default (run default .initial before) token).count_dangling_add_le
      entry
    rw [run_initial_position] at taken
    rw [run_concat, step_warnings, List.filterMap_append, List.filterMap_reverse, List.count_append,
      List.count_reverse, List.zipIdx_append, List.count_append, Nat.zero_add]
    have last : [token].zipIdx before.length = [(token, before.length)] := rfl
    rw [last]
    omega

/-- At the end of the tokens, too, only what waits is reported. -/
theorem count_endReport_le (default : Conjunction) (frame : Frame) (outer : List Frame)
    (entry : Token × Nat) :
    ((endReport default frame outer).filterMap dangling?).count entry ≤
      ((frame :: outer).flatMap Frame.waiting).count entry := by
  have abandoned (frame : Frame) := frame.filterMap_abandon.count_eq entry
  induction outer generalizing frame with
  | nil => simpa [endReport] using Nat.le_of_eq (abandoned frame)
  | cons around outer ih =>
    have resolved := around.count_resolve_le default (frame.fold.finish default) entry
    have rest := ih (around.resolve default (frame.fold.finish default)).1
    rw [List.flatMap_cons, Frame.waiting_resolve, List.nil_append] at rest
    rw [endReport, List.filterMap_append, List.filterMap_cons_none rfl, List.filterMap_append,
      List.count_append, List.count_append, abandoned, List.flatMap_cons, List.flatMap_cons,
      List.count_append, List.count_append]
    omega

/-- The operators that a parse reports are some of its tokens, each at most once. -/
theorem dangling_subperm (default : Conjunction) (tokens : List Token) :
    ((parse default tokens).warnings.filterMap dangling?).Subperm tokens.zipIdx := by
  refine List.subperm_ext_iff.2 fun entry _ => ?_
  have reported := count_dangling_run default tokens entry
  have atEnd := count_endReport_le default (run default .initial tokens).frame
    (run default .initial tokens).outer entry
  rw [parse, finish_warnings, List.filterMap_append, List.filterMap_reverse, List.count_append,
    List.count_reverse]
  omega

/-! ### The warnings of a parse -/

/-- The warnings of a parse are exact about the parentheses and the depth of its tokens, and what
they say about operators is true, whether or not the tokens nest too deep. -/
theorem diagnosis_parse (default : Conjunction) (tokens : List Token) :
    Diagnosis default tokens (parse default tokens).warnings where
  unmatched_eq := by
    rw [filterMap_warnings_parse (fun _ _ => rfl) rfl, unmatched_stateAt (Nat.le_refl _), unopened]
  count_unclosed_le := by
    rw [count_unclosedGroup]
    exact length_outer_run_le default tokens
  count_unclosed_eq shallow := by
    have limited : (run default .initial tokens).limited = false :=
      Parsed.Shallow.limited_eq shallow
    have total := skipped_add_length_outer default tokens
    rw [(honest_run tokens).skipped_eq limited, Nat.zero_add] at total
    rw [count_unclosedGroup, total, length_unclosed]
  dangling operator position recorded := by
    have member := (dangling_subperm default tokens).subset (mem_dangling.2 recorded)
    simpa using List.mem_zipIdx_iff_getElem?.1 member
  nodup_dangling := by
    obtain ⟨entries, perm, sublist⟩ := dangling_subperm default tokens
    have nodup : (tokens.zipIdx.map Prod.snd).Nodup := by
      rw [List.zipIdx_map_snd]
      exact List.nodup_range'
    exact (perm.map Prod.snd).nodup_iff.1 (nodup.sublist (sublist.map Prod.snd))
  tooDeep_eq := by
    rw [filterMap_warnings_parse (fun _ _ => rfl) rfl, tooDeep_stateAt (Nat.le_refl _)]
  isSkipped_iff _ _ here nests := isSkipped_iff_unchanged default here nests

-- the operator in front of the group is found to lack an operand only when the group ends
example :
    let tokens := [Token.closeParen, .operator .or, .openParen, .term "a", .operator .not]
    (parse .and tokens).warnings = [.unmatchedCloseParen 0, .danglingOperator .not 4,
      .unclosedGroup, .danglingOperator .or 1] := by
  decide +kernel

end Parser

end SearchKeys
