/-
# The default conjunction

The caller chooses the conjunction between keys with no operator. Whichever it is, the same is
tolerated in the keys and recorded, and the tree has the same shape. The choice only shows in the
groups of neighbours without an operator, and not in those of them that contain a negation: these
have to match as a whole in any case.

## Main definitions

* `Node.Varies`: two trees that are the same but for the groups that have the default conjunction.

## Main results

* `Parser.State.Parallel.report_eq`: corresponding states put the same on record.
* `Parser.parse_and_or`: parses with either default conjunction have the same warnings, and their
  trees only vary in it.
-/

import SearchKeys.Proofs.Query.Parallel

namespace SearchKeys

/-- The trees have the same shape, leaves and negations. Corresponding groups have the same
conjunction, or else it is `AND` in the first tree and `OR` in the second, and neither the groups
nor their children are negations. -/
inductive Node.Varies : Node → Node → Prop
  | keys (text : String) : Varies (keys text) (keys text)
  | same {conjunction : Conjunction} {negated : Bool} {children children' : List Node}
      (inner : List.Forall₂ Varies children children') :
    Varies (group conjunction negated children) (group conjunction negated children')
  | open {children children' : List Node} (inner : List.Forall₂ Varies children children')
      (positive : ∀ child ∈ children ++ children', child.isNegation = false) :
    Varies (group .and false children) (group .or false children')

theorem Node.Varies.isNegation_eq {node node' : Node} (varies : node.Varies node') :
    node.isNegation = node'.isNegation := by
  cases varies <;> rfl

/-- No child is a negation if no corresponding one is. -/
theorem Node.forall_positive_of_varies {children children' : List Node}
    (inner : List.Forall₂ Varies children children')
    (positive : ∀ child ∈ children, child.isNegation = false) :
    ∀ child ∈ children', child.isNegation = false := by
  induction inner with
  | nil => exact positive
  | cons first _ ih =>
    obtain ⟨positiveFirst, positiveRest⟩ := List.forall_mem_cons.1 positive
    exact List.forall_mem_cons.2 ⟨first.isNegation_eq ▸ positiveFirst, ih positiveRest⟩

theorem Node.congruent_varies : Congruent .and .or Varies where
  isNegation_eq := Varies.isNegation_eq
  not related := .same (.cons related .nil)
  group related := .same related
  run related positive := by
    refine .open related fun child member => ?_
    rcases List.mem_append.1 member with inFirst | inSecond
    · exact positive child inFirst
    · exact forall_positive_of_varies related positive child inSecond

namespace Parser

variable {default default' : Conjunction} {R : Node → Node → Prop} {frame frame' : Frame}
  {outer outer' : List Frame} {state state' : State}

namespace Frame.Parallel

variable {deeper : Nat}

theorem joiner_eq (parallel : frame.Parallel R Eq deeper frame') :
    frame.joiner = frame'.joiner := by
  have joiner := parallel.joiner
  generalize frame.joiner = waiting at joiner ⊢
  generalize frame'.joiner = waiting' at joiner ⊢
  cases joiner with
  | none => rfl
  | some same => exact congrArg some (Prod.ext same.1 same.2)

theorem negations_eq (parallel : frame.Parallel R Eq deeper frame') :
    frame.negations = frame'.negations := by
  have negations := parallel.negations
  rwa [List.forall₂_eq_eq_eq] at negations

/-- What becomes of the tokens that wait does not depend on the trees. -/
theorem abandon_snd (parallel : frame.Parallel R Eq deeper frame') :
    frame.abandon.2 = frame'.abandon.2 := by
  rw [abandon, abandon, parallel.joiner_eq, parallel.negations_eq]

theorem resolve_snd {operand operand' : Option Node}
    (parallel : frame.Parallel R Eq deeper frame') (related : Option.Rel R operand operand') :
    (frame.resolve default operand).2 = (frame'.resolve default' operand').2 := by
  cases related with
  | none => exact parallel.abandon_snd
  | some related =>
    rw [resolve_some, resolve_some, accept, accept, parallel.joiner_eq, parallel.fold.isEmpty_eq]
    cases frame'.joiner with
    | none => rfl
    | some joiner => cases frame'.fold.isEmpty <;> rfl

end Frame.Parallel

/-- Closing corresponding frames puts the same on record. -/
theorem endReport_parallel (congruent : Node.Congruent default default' R)
    (parallel : frame.Parallel R Eq 0 frame')
    (around : Frame.Around R Eq 0 [] outer outer') :
    endReport default frame outer = endReport default' frame' outer' := by
  induction around generalizing frame frame' with
  | base => exact parallel.abandon_snd
  | cons first _ ih =>
    have finished := parallel.fold.finish congruent
    rw [endReport, endReport, parallel.abandon_snd, first.resolve_snd finished,
      ih (first.resolve congruent finished)]

/-- Corresponding states that were limited together put the same on record. -/
theorem State.Parallel.report_eq (congruent : Node.Congruent default default' R)
    (parallel : state.Parallel R Eq 0 [] state') (limited_eq : state.limited = state'.limited)
    (reflexive : ∀ text, R (.keys text) (.keys text)) (token : Token) :
    state.report default token = state'.report default' token := by
  have abandoned := parallel.frame.abandon_snd
  have depth : state.depthReport = state'.depthReport := by
    have limit : state.atLimit = state'.atLimit := by
      rw [atLimit, atLimit, parallel.frame.operandDepth_eq, Nat.add_zero]
    rw [depthReport, depthReport, limit, limited_eq, parallel.position]
  cases token with
  | term text => exact parallel.frame.resolve_snd (.some (reflexive text))
  | phrase text => exact parallel.frame.resolve_snd (.some (reflexive text))
  | operator op =>
    cases op with
    | and => exact abandoned
    | or => exact abandoned
    | not => exact depth
  | openParen => exact depth
  | closeParen =>
    have closed : state.closeReport default = state'.closeReport default' := by
      have around := parallel.outer
      rw [closeReport, closeReport, parallel.skipped_eq, parallel.position]
      generalize state.outer = outer at around ⊢
      generalize state'.outer = outer' at around ⊢
      split
      · rfl
      · cases around with
        | base => rfl
        | cons first _ => exact first.resolve_snd (parallel.frame.fold.finish congruent)
    rw [report, report, abandoned, closed]

/-- Runs that take the same tokens from the start put the same on record. -/
theorem warnings_run_parallel (congruent : Node.Congruent default default' R)
    (reflexive : ∀ text, R (.keys text) (.keys text)) (tokens : List Token) :
    (run default .initial tokens).warnings = (run default' .initial tokens).warnings := by
  have parallel (tokens : List Token) :
      (run default .initial tokens).Parallel R Eq 0 [] (run default' .initial tokens) :=
    (State.parallel_initial rfl).run congruent (fun _ _ => congrArg (· + 1))
      fun _ _ text _ => reflexive text
  suffices (run default .initial tokens).limited = (run default' .initial tokens).limited ∧
      (run default .initial tokens).warnings = (run default' .initial tokens).warnings from this.2
  induction tokens using List.reverseRecOn with
  | nil => exact ⟨rfl, rfl⟩
  | append_singleton tokens token ih =>
    obtain ⟨limited_eq, warnings_eq⟩ := ih
    rw [run_concat, run_concat]
    constructor
    · rw [Bool.eq_iff_iff, step_limited_iff, step_limited_iff, limited_eq,
        (parallel tokens).skips_iff]
    · rw [step_warnings, step_warnings, warnings_eq,
        (parallel tokens).report_eq congruent limited_eq reflexive]

/-- The default conjunction has no influence on the warnings. Of the tree, it decides the
conjunction of groups that have no negations among their children, and nothing else. -/
theorem parse_and_or (tokens : List Token) :
    (parse .and tokens).warnings = (parse .or tokens).warnings ∧
      Option.Rel Node.Varies (parse .and tokens).node (parse .or tokens).node := by
  have parallel : (run .and .initial tokens).Parallel Node.Varies Eq 0 []
      (run .or .initial tokens) :=
    (State.parallel_initial rfl).run Node.congruent_varies (fun _ _ => congrArg (· + 1))
      fun _ _ text _ => .keys text
  constructor
  · rw [parse, parse, finish_warnings, finish_warnings,
      warnings_run_parallel Node.congruent_varies Node.Varies.keys,
      endReport_parallel Node.congruent_varies parallel.frame parallel.outer]
  · rw [parse_node, parse_node]
    exact nodeOf_parallel Node.congruent_varies parallel.frame parallel.outer

/-- Of two runs of neighbours, the one with a negation in it does not vary. -/
example : (parse .and [.openParen, .term "a", .term "b", .closeParen, .operator .or, .openParen,
      .term "c", .operator .not, .term "d", .closeParen]).node =
    some (.group .or false [.group .and false [.keys "a", .keys "b"],
      .group .and false [.keys "c", (Node.keys "d").not]]) := by decide

end Parser

end SearchKeys
