/-
# Mending keys

What the parser tolerates, it tolerates by leaving tokens out and by closing groups at the
end, and its warnings say which and how often. Keys mended accordingly are an expression of
the grammar with the same tree, and nothing is left to warn about.

## Main definitions

* `Parser.missing`: the right parentheses that are missing at the end.
* `Parser.mend`: the keys without the ignored tokens, and with the missing parentheses.

## Main results

* `Parser.run_missing`: reading the missing parentheses is closing the groups at the end.
* `Parser.parse_mend`: mended keys have the same tree and no warnings.
* `Parser.warnings_parse_eq_nil_iff`: there are no warnings exactly for the expressions of the
  grammar.
-/

import SearchKeys.Proofs.Query.Draft

namespace SearchKeys.Parser

open Grammar Warning

variable {default : Conjunction} {state : State} {frame around : Frame} {outer : List Frame}

/-! ### The end of the tokens -/

theorem finish_node :
    (state.finish default).node = nodeOf default state.frame state.outer :=
  closeAll_fst _

/-- A right parenthesis closes the innermost group as the end of the tokens would, but that its
absence is not recorded. -/
theorem finish_closeParen (noneSkipped : state.skipped = 0)
    (inside : state.outer = around :: outer) :
    ((step default state .closeParen).finish default).node = (state.finish default).node ∧
      (state.finish default).warnings.Perm
        (.unclosedGroup :: ((step default state .closeParen).finish default).warnings) := by
  obtain ⟨frame_eq, outer_eq, _⟩ := step_closeGroup default noneSkipped inside
  have reported := State.report_closeGroup default noneSkipped inside
  constructor
  · rw [finish_node, finish_node, frame_eq, outer_eq, inside, nodeOf]
  · rw [finish_warnings, finish_warnings, step_warnings, reported, frame_eq, outer_eq, inside,
      endReport]
    simp only [List.reverse_append, List.reverse_reverse, List.append_assoc]
    rw [← List.append_assoc, ← List.append_assoc]
    exact List.perm_middle

/-- Reading the missing parentheses closes all groups as the end of the tokens would, but that
their absence is not recorded. -/
theorem run_missing (default : Conjunction) {count : Nat} (noneSkipped : state.skipped = 0)
    (count_eq : state.outer.length = count) :
    let closed := run default state (List.replicate count .closeParen)
    closed.outer = [] ∧ closed.limited = state.limited ∧
      (closed.finish default).node = (state.finish default).node ∧
      (state.finish default).warnings.Perm
        (List.replicate count .unclosedGroup ++ (closed.finish default).warnings) := by
  induction count generalizing state with
  | zero => exact ⟨List.length_eq_zero_iff.1 count_eq, rfl, rfl, .refl _⟩
  | succ count ih =>
    obtain ⟨around, outer, inside⟩ := List.exists_cons_of_length_eq_add_one count_eq
    obtain ⟨_, outer_eq, stillNone⟩ := step_closeGroup default noneSkipped inside
    have rest : (step default state .closeParen).outer.length = count := by
      rw [outer_eq]
      simpa [inside] using count_eq
    have unlimited : (step default state .closeParen).limited = state.limited := by
      rw [Bool.eq_iff_iff, step_limited_iff]
      simp [State.Skips]
    obtain ⟨node_eq, perm⟩ := finish_closeParen noneSkipped inside
    obtain ⟨outermost, limited_eq, node_eq', perm'⟩ := ih stillNone rest
    rw [List.replicate_succ, run_cons]
    refine ⟨outermost, limited_eq.trans unlimited, node_eq'.trans node_eq, ?_⟩
    exact perm.trans (perm'.cons _)

/-- Only the end of the tokens finds a group unclosed. -/
theorem unclosedGroup_notMem_resolve (default : Conjunction) (operand : Option Node)
    (frame : Frame) :
    .unclosedGroup ∉ (frame.resolve default operand).2 := by
  intro member
  obtain ⟨operator, position, isOperator⟩ := Frame.exists_of_mem_resolve member
  cases isOperator

theorem unclosedGroup_notMem_report {token : Token} :
    .unclosedGroup ∉ state.report default token := by
  have depth : .unclosedGroup ∉ state.depthReport := by
    unfold State.depthReport
    split <;> simp
  have abandoned : .unclosedGroup ∉ state.frame.abandon.2 :=
    unclosedGroup_notMem_resolve default none _
  match token with
  | .term text => exact unclosedGroup_notMem_resolve default (some _) _
  | .phrase text => exact unclosedGroup_notMem_resolve default (some _) _
  | .operator .and => exact abandoned
  | .operator .or => exact abandoned
  | .operator .not => exact depth
  | .openParen => exact depth
  | .closeParen =>
    rw [State.report, List.mem_append, not_or]
    refine ⟨abandoned, ?_⟩
    unfold State.closeReport
    split
    · simp
    · split
      · simp
      · exact unclosedGroup_notMem_resolve default _ _

theorem unclosedGroup_notMem_run (default : Conjunction) (tokens : List Token) :
    .unclosedGroup ∉ (run default .initial tokens).warnings := by
  have keeps (state : State) (token : Token) (_ : token ∈ tokens)
      (none : .unclosedGroup ∉ state.warnings) :
      .unclosedGroup ∉ (step default state token).warnings := by
    rw [step_warnings, List.mem_append, List.mem_reverse, not_or]
    exact ⟨unclosedGroup_notMem_report, none⟩
  have start : .unclosedGroup ∉ State.initial.warnings := by simp [State.initial]
  exact run_keeps keeps start

theorem count_endReport :
    (endReport default frame outer).count .unclosedGroup = outer.length := by
  have abandoned (frame : Frame) : frame.abandon.2.count .unclosedGroup = 0 :=
    List.count_eq_zero_of_not_mem (unclosedGroup_notMem_resolve default none _)
  induction outer generalizing frame with
  | nil => exact abandoned frame
  | cons around outer ih =>
    have resolved :=
      List.count_eq_zero_of_not_mem (unclosedGroup_notMem_resolve default
        (frame.fold.finish default) around)
    rw [endReport, List.count_append, List.count_cons_self, List.count_append, abandoned, resolved,
      ih, List.length_cons]
    omega

/-- Each group that is left open is recorded once. -/
theorem count_unclosedGroup (default : Conjunction) (tokens : List Token) :
    (parse default tokens).warnings.count .unclosedGroup =
      (run default .initial tokens).outer.length := by
  have none : (run default .initial tokens).warnings.reverse.count .unclosedGroup = 0 :=
    List.count_eq_zero_of_not_mem
      (mt List.mem_reverse.1 (unclosedGroup_notMem_run default tokens))
  rw [parse, finish_warnings, List.count_append, none, count_endReport, Nat.zero_add]

/-! ### Mended keys -/

/-- The right parentheses that are missing at the end of the keys. -/
def missing (default : Conjunction) (tokens : List Token) : List Token :=
  List.replicate ((parse default tokens).warnings.count .unclosedGroup) .closeParen

/-- The keys without the tokens that were ignored, and with the parentheses that are missing. -/
def mend (default : Conjunction) (tokens : List Token) : List Token :=
  without (· ∈ ignored (parse default tokens).warnings) tokens ++ missing default tokens

/-- If all groups are closed, the tokens that were not ignored are an expression of the grammar,
and they are read into the tree of the parse. -/
theorem exists_readsExpression_without {tokens : List Token}
    (limited : (run default .initial tokens).limited = false)
    (outermost : (run default .initial tokens).outer = []) : ∃ fold : Fold,
      IsExpression 0 (!fold.isEmpty)
        (without (· ∈ ignored (parse default tokens).warnings) tokens) ∧
      ReadsExpression default 0 fold
        (without (· ∈ ignored (parse default tokens).warnings) tokens) ∧
      fold.finish default = (parse default tokens).node := by
  have drafts := (keeps_run limited).drafts
  have node_eq : (parse default tokens).node =
      (run default .initial tokens).frame.fold.finish default := by
    rw [parse_node, outermost, nodeOf]
  have dropped (position : Nat) : position ∈ ignored (parse default tokens).warnings ↔
      position ∈ ignored (run default .initial tokens).warnings ++
        ignored (run default .initial tokens).frame.abandon.2 := by
    rw [parse, finish_warnings, outermost, endReport, ignored_append, List.mem_append,
      List.mem_append, mem_ignored_reverse]
  have split : without (· ∈ ignored (parse default tokens).warnings) tokens =
      (dropping (ignored (run default .initial tokens).frame.abandon.2)
        (kept (run default .initial tokens).warnings tokens)).map Prod.fst := by
    rw [kept, ← dropping_dropping, ← dropping_congr dropped]
    rfl
  have closed := drafts.abandon (nodup_kept _ _) none
  rw [Frame.waiting_resting, List.append_nil, outermost] at closed
  rw [split, node_eq]
  generalize dropping (ignored (run default .initial tokens).frame.abandon.2)
    (kept (run default .initial tokens).warnings tokens) = rest at closed ⊢
  obtain ⟨depth_eq, draft⟩ := closed.draft_of_outermost
  refine ⟨_, ?_, ?_, rfl⟩
  · rw [← depth_eq]
    exact draft.isExpression
  · rw [← depth_eq]
    exact draft.reads

/-- Only the positions of the tokens that were given are ignored. -/
theorem ignored_parse_lt {tokens : List Token}
    (limited : (run default .initial tokens).limited = false) :
    ∀ position ∈ ignored (parse default tokens).warnings, position < tokens.length := by
  intro position dropped
  have keeps := keeps_run limited
  rw [parse, finish_warnings, ignored_append, List.mem_append, mem_ignored_reverse] at dropped
  rcases dropped with before | atEnd
  · exact keeps.bound position before
  · obtain ⟨open', inside, waits⟩ := mem_ignored_endReport atEnd
    exact lt_of_mem_kept position (keeps.drafts.mem_of_waiting open' inside _ waits)

/-- Mended keys are an expression of the grammar, and they are read into the tree of the
parse. -/
theorem exists_readsExpression_mend {tokens : List Token}
    (shallow : (parse default tokens).Shallow) : ∃ fold : Fold,
      IsExpression 0 (!fold.isEmpty) (mend default tokens) ∧
      ReadsExpression default 0 fold (mend default tokens) ∧
      fold.finish default = (parse default tokens).node := by
  have limited := shallow.limited_eq
  have noneSkipped := (honest_run tokens).skipped_eq limited
  obtain ⟨outermost, limited_eq, node_eq, perm⟩ :=
    run_missing default noneSkipped (count_unclosedGroup default tokens).symm
  rw [← missing, ← run_append] at outermost limited_eq node_eq perm
  -- with the missing parentheses all groups are closed, and the same tokens are ignored
  obtain ⟨fold, isExpression, reads, finished⟩ :=
    exists_readsExpression_without (limited_eq.trans limited) outermost
  have same (position : Nat) :
      position ∈ ignored (parse default (tokens ++ missing default tokens)).warnings ↔
        position ∈ ignored (parse default tokens).warnings := by
    have groups (count : Nat) : ignored (List.replicate count .unclosedGroup) = [] := by
      simp [ignored, ignored?]
    have filtered := (perm.filterMap ignored?).mem_iff (a := position)
    rw [← ignored, ← ignored, ignored_append, groups, List.nil_append] at filtered
    exact filtered.symm
  rw [without_congr same, without_append (ignored_parse_lt limited), ← mend] at isExpression reads
  exact ⟨fold, isExpression, reads, finished.trans node_eq⟩

/-- Keys in which nothing nests too deep, without the tokens that the warnings say were ignored
and with a right parenthesis for each group that they say was left open, have the same tree and
no warnings. -/
theorem parse_mend {tokens : List Token} (shallow : (parse default tokens).Shallow) :
    parse default (mend default tokens) = ⟨(parse default tokens).node, []⟩ := by
  obtain ⟨fold, _, reads, finished⟩ := exists_readsExpression_mend shallow
  rw [reads.parse_eq, finished]

/-- The first negation stands in front of an empty group, one parenthesis is too many and the
other group is not closed. -/
theorem parse_mend_or :
    let tokens := [Token.openParen, .operator .not, .openParen, .closeParen, .term "a",
      .closeParen, .closeParen, .operator .or, .openParen, .term "b", .operator .and]
    (parse .and tokens).Shallow ∧
      parse .and (mend .and tokens) = ⟨(parse .and tokens).node, []⟩ ∧
      mend .and tokens = [.openParen, .openParen, .closeParen, .term "a", .closeParen,
        .operator .or, .openParen, .term "b", .closeParen] := by
  intro tokens
  have shallow : (parse .and tokens).Shallow := by decide +kernel
  exact ⟨shallow, parse_mend shallow, by decide +kernel⟩

/-- Keys without warnings are mended already. -/
theorem mend_of_warnings_eq_nil {tokens : List Token}
    (clean : (parse default tokens).warnings = []) : mend default tokens = tokens := by
  rw [mend, missing, clean]
  simp [without]

/-- There are no warnings exactly for the expressions of the grammar. -/
theorem warnings_parse_eq_nil_iff {tokens : List Token} :
    (parse default tokens).warnings = [] ↔ ∃ hasOperand, IsExpression 0 hasOperand tokens := by
  constructor
  · intro clean
    obtain ⟨fold, isExpression, _⟩ := exists_readsExpression_mend (Parsed.shallow_of_nil clean)
    rw [mend_of_warnings_eq_nil clean] at isExpression
    exact ⟨_, isExpression⟩
  · rintro ⟨hasOperand, isExpression⟩
    obtain ⟨fold, _, reads⟩ := exists_readsExpression default isExpression
    rw [reads.parse_eq]

end SearchKeys.Parser
