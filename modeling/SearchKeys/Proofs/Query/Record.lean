/-
# What the parser puts on record

Each token adds its own warnings to those before it, and the end of the tokens adds the last
ones. A token that is skipped for its depth always leaves a trace among them: if no warning
says that something nests too deep, every `NOT` and every left parenthesis was kept.

## Main definitions

* `Warning.ignored?`: the token that a warning says was ignored.
* `Parser.without`: tokens without those at some positions.
* `Parser.State.report`: what a token adds to the record.
* `Parser.Parsed.Shallow`: nothing nests too deep.

## Main results

* `Parser.step_warnings`: a step adds its report.
* `Parser.run_keeps_of_unlimited`: what every step that skips nothing keeps holds after a run
  that skips nothing.
* `Parser.Parsed.Shallow.limited_eq`: if nothing nests too deep, nothing was skipped.
* `Parser.finish_warnings`: the warnings of a parse are the reports of its steps and of its end.
-/

import SearchKeys.Proofs.Query.Step
import Mathlib.Data.List.Induction

namespace SearchKeys

/-- The position of the token that the warning says was ignored. -/
def Warning.ignored? : Warning → Option Nat
  | danglingOperator _ token => some token
  | unmatchedCloseParen token => some token
  | _ => none

/-- The positions of all tokens that the warnings say were ignored. -/
def Warning.ignored (warnings : List Warning) : List Nat :=
  warnings.filterMap ignored?

@[simp] theorem Warning.ignored_nil : ignored [] = [] := rfl

@[simp] theorem Warning.ignored_append (first second : List Warning) :
    ignored (first ++ second) = ignored first ++ ignored second := by
  simp [ignored]

theorem Warning.mem_ignored_reverse {warnings : List Warning} {position : Nat} :
    position ∈ ignored warnings.reverse ↔ position ∈ ignored warnings := by
  simp [ignored]

namespace Parser

variable {default : Conjunction} {state : State} {frame : Frame} {outer : List Frame}
  {token : Token}

/-- The tokens without those at some positions. -/
def without (gone : Nat → Prop) [DecidablePred gone] (tokens : List Token) : List Token :=
  (tokens.zipIdx.filter fun token => ¬gone token.2).map Prod.fst

/-- Whether the last token stays is decided for itself. -/
theorem without_concat (gone : Nat → Prop) [DecidablePred gone] (tokens : List Token)
    (token : Token) : without gone (tokens ++ [token]) =
      without gone tokens ++ if gone tokens.length then [] else [token] := by
  rw [without, List.zipIdx_append, List.filter_append, List.map_append, ← without]
  by_cases last : gone tokens.length <;> simp [last]

theorem without_congr {gone gone' : Nat → Prop} [DecidablePred gone] [DecidablePred gone']
    (same : ∀ position, gone position ↔ gone' position) (tokens : List Token) :
    without gone tokens = without gone' tokens := by
  simp [without, same]

/-- If only some of the first tokens go, the others stay. -/
theorem without_append {gone : Nat → Prop} [DecidablePred gone] {first : List Token}
    (bound : ∀ position, gone position → position < first.length) (second : List Token) :
    without gone (first ++ second) = without gone first ++ second := by
  have stays : (second.zipIdx first.length).filter (fun token => ¬gone token.2) =
      second.zipIdx first.length := by
    refine List.filter_eq_self.2 fun token member => ?_
    have later := List.le_snd_of_mem_zipIdx member
    rw [decide_eq_true_eq]
    exact fun goes => by have earlier := bound _ goes; omega
  rw [without, List.zipIdx_append, Nat.zero_add, List.filter_append, stays, List.map_append,
    List.zipIdx_map_fst, without]

/-! ### Reports -/

/-- A frame reports operators without an operand, and nothing else. -/
theorem Frame.exists_of_mem_resolve {operand : Option Node} {warning : Warning}
    (member : warning ∈ (frame.resolve default operand).2) :
    ∃ operator position, warning = .danglingOperator operator position := by
  cases operand with
  | none =>
    rw [resolve_none, abandon, List.mem_append] at member
    rcases member with negation | joiner
    · obtain ⟨position, _, rfl⟩ := List.mem_map.1 negation
      exact ⟨_, _, rfl⟩
    · split at joiner
      · cases joiner
      · exact ⟨_, _, List.mem_singleton.1 joiner⟩
  | some node =>
    rw [resolve_some, accept] at member
    split at member
    · cases member
    · split at member
      · exact ⟨_, _, List.mem_singleton.1 member⟩
      · cases member

namespace State

/-- What a token that nests too deep adds to the record, unless one was recorded before. -/
def depthReport (state : State) : List Warning :=
  if state.atLimit ∧ state.limited = false then [.nestingTooDeep state.position] else []

/-- What the end of an expression adds to the record. -/
def closeReport (default : Conjunction) (state : State) : List Warning :=
  if 0 < state.skipped then []
  else
    match state.outer with
    | [] => [.unmatchedCloseParen state.position]
    | around :: _ => (around.resolve default (state.frame.fold.finish default)).2

/-- What a token adds to the record, in order. -/
def report (default : Conjunction) (token : Token) (state : State) : List Warning :=
  match token with
  | .term text => (state.frame.accept default (.keys text)).2
  | .phrase text => (state.frame.accept default (.keys text)).2
  | .operator .not => state.depthReport
  | .operator _ => state.frame.abandon.2
  | .openParen => state.depthReport
  | .closeParen => state.frame.abandon.2 ++ state.closeReport default

theorem depthReport_eq_nil (room : ¬state.atLimit) : state.depthReport = [] := by
  simp [depthReport, room]

theorem report_key {text : String} (carries : token.key? = some text) :
    state.report default token = (state.frame.accept default (.keys text)).2 := by
  cases token <;> cases carries <;> rfl

theorem report_operator (conjunction : Conjunction) :
    state.report default (.operator (.ofConjunction conjunction)) = state.frame.abandon.2 := by
  cases conjunction <;> rfl

theorem report_stray (default : Conjunction) (noneSkipped : state.skipped = 0)
    (outermost : state.outer = []) : state.report default .closeParen =
      state.frame.abandon.2 ++ [.unmatchedCloseParen state.position] := by
  simp [report, closeReport, noneSkipped, outermost]

theorem report_closeGroup (default : Conjunction) {around : Frame}
    (noneSkipped : state.skipped = 0) (inside : state.outer = around :: outer) :
    state.report default .closeParen = state.frame.abandon.2 ++
      (around.resolve default (state.frame.fold.finish default)).2 := by
  simp [report, closeReport, noneSkipped, inside]

theorem skip_warnings (limit : state.atLimit) :
    state.skip.warnings = state.depthReport.reverse ++ state.warnings := by
  unfold skip depthReport
  cases limited : state.limited <;> simp [limit, record]

theorem closeGroup_warnings :
    (state.closeGroup default).warnings =
      (state.closeReport default).reverse ++ state.warnings := by
  unfold closeGroup closeReport
  split
  · rfl
  · cases state.outer with
    | nil => rfl
    | cons around outer => rfl

end State

/-- A step adds its report to the record. -/
theorem step_warnings (default : Conjunction) (state : State) (token : Token) :
    (step default state token).warnings =
      (state.report default token).reverse ++ state.warnings := by
  match token with
  | .term text => rfl
  | .phrase text => rfl
  | .operator .and => rfl
  | .operator .or => rfl
  | .operator .not =>
    show (state.take default (.operator .not)).warnings = state.depthReport.reverse ++ _
    rw [State.take, State.negate]
    split
    · next limit => exact State.skip_warnings limit
    · next room => rw [State.depthReport_eq_nil room]; rfl
  | .openParen =>
    show (state.take default .openParen).warnings = state.depthReport.reverse ++ _
    rw [State.take, State.openGroup]
    split
    · next limit => exact State.skip_warnings limit
    · next room => rw [State.depthReport_eq_nil room]; rfl
  | .closeParen =>
    have resolved : (state.resolve default none).warnings =
        state.frame.abandon.2.reverse ++ state.warnings := rfl
    have closed : (state.resolve default none).closeReport default =
        state.closeReport default := rfl
    show ((state.resolve default none).closeGroup default).warnings =
      (state.frame.abandon.2 ++ state.closeReport default).reverse ++ _
    rw [State.closeGroup_warnings, resolved, closed]
    simp

@[simp] theorem step_position : (step default state token).position = state.position + 1 := rfl

theorem run_position (tokens : List Token) :
    (run default state tokens).position = state.position + tokens.length := by
  induction tokens generalizing state with
  | nil => rfl
  | cons token tokens ih =>
    rw [run_cons, ih, step_position, List.length_cons]
    omega

/-- From the start, the position is the number of tokens. -/
theorem run_initial_position (default : Conjunction) (tokens : List Token) :
    (run default .initial tokens).position = tokens.length := by
  rw [run_position]
  exact Nat.zero_add _

theorem run_concat (tokens : List Token) (token : Token) :
    run default state (tokens ++ [token]) = step default (run default state tokens) token := by
  rw [run_append, run_cons, run_nil]

/-- What the end of the tokens adds to the record, in order. -/
def endReport (default : Conjunction) (frame : Frame) : List Frame → List Warning
  | [] => frame.abandon.2
  | around :: outer =>
    frame.abandon.2 ++ .unclosedGroup ::
      ((around.resolve default (frame.fold.finish default)).2 ++
        endReport default (around.resolve default (frame.fold.finish default)).1 outer)

theorem closeAll_snd (warnings : List Warning) :
    (State.closeAll default frame warnings outer).2 =
      (endReport default frame outer).reverse ++ warnings := by
  induction outer generalizing frame warnings with
  | nil => rfl
  | cons around outer ih =>
    simp [State.closeAll, ih, endReport, Frame.abandon_fst]

/-- The warnings at the end are those of the steps, then those of the end of the tokens. -/
theorem finish_warnings : (state.finish default).warnings =
    state.warnings.reverse ++ endReport default state.frame state.outer := by
  show (State.closeAll default _ _ _).2.reverse = _
  rw [closeAll_snd, List.reverse_append, List.reverse_reverse]

/-! ### Depth -/

/-- Nothing nests too deep. -/
def Parsed.Shallow (parsed : Parsed) : Prop :=
  ∀ position, .nestingTooDeep position ∉ parsed.warnings

theorem Parsed.shallow_iff {parsed : Parsed} : parsed.Shallow ↔
    ∀ warning ∈ parsed.warnings, ¬(warning matches .nestingTooDeep _) := by
  constructor
  · rintro shallow warning recorded isDepth
    split at isDepth
    · exact shallow _ recorded
    · cases isDepth
  · exact fun others position recorded => others _ recorded rfl

instance (parsed : Parsed) : Decidable parsed.Shallow :=
  decidable_of_iff' _ Parsed.shallow_iff

/-- In a parse without warnings nothing nests too deep. -/
theorem Parsed.shallow_of_nil {parsed : Parsed} (clean : parsed.warnings = []) :
    parsed.Shallow := by
  intro position
  simp [clean]

namespace State

/-- The token would nest too deep, so that it is skipped. -/
def Skips (state : State) (token : Token) : Prop :=
  state.atLimit ∧ (token = .openParen ∨ token = .operator .not)

instance (state : State) (token : Token) : Decidable (state.Skips token) :=
  inferInstanceAs (Decidable (_ ∧ _))

theorem skip_limited : state.skip.limited = true := by
  unfold skip
  split
  · assumption
  · rfl

theorem closeGroup_limited : (state.closeGroup default).limited = state.limited := by
  unfold closeGroup
  split
  · rfl
  · split <;> rfl

end State

/-- A token that is skipped leaves all frames as they are. -/
theorem State.Skips.step (skips : state.Skips token) (default : Conjunction) :
    (step default state token).frame = state.frame ∧
      (step default state token).outer = state.outer := by
  obtain ⟨limit, rfl | rfl⟩ := skips
  · simp [Parser.step, State.take, State.openGroup, limit]
  · simp [Parser.step, State.take, State.negate, limit]

/-- The first token that is skipped makes the difference, and it makes it for good. -/
theorem step_limited_iff (default : Conjunction) : (step default state token).limited = true ↔
    state.limited = true ∨ state.Skips token := by
  match token with
  | .term text => simp [step, State.take, State.resolve, State.record, State.Skips]
  | .phrase text => simp [step, State.take, State.resolve, State.record, State.Skips]
  | .operator .and =>
    simp [step, State.take, State.resolve, State.record, State.join, State.Skips]
  | .operator .or =>
    simp [step, State.take, State.resolve, State.record, State.join, State.Skips]
  | .closeParen =>
    simp [step, State.take, State.closeGroup_limited, State.resolve, State.record, State.Skips]
  | .operator .not =>
    by_cases limit : state.atLimit <;>
      simp [step, State.take, State.negate, State.Skips, limit, State.skip_limited]
  | .openParen =>
    by_cases limit : state.atLimit <;>
      simp [step, State.take, State.openGroup, State.Skips, limit, State.skip_limited]

/-- A step that skips nothing leaves no right parenthesis to be skipped if none was. -/
theorem Effect.skipped_eq_zero {skipped : Nat}
    (effect : Effect default state token frame outer skipped) (keeps : ¬state.Skips token)
    (noneSkipped : state.skipped = 0) : skipped = 0 := by
  cases effect with
  | skipOpen limit => exact absurd ⟨limit, .inl rfl⟩ keeps
  | swallow waiting => omega
  | _ => exact noneSkipped

/-- What was skipped was recorded, and without that no right parenthesis is to be skipped. -/
structure State.Honest (state : State) : Prop where
  /-- The first skipped token is on record. -/
  recorded : state.limited = true → ∃ position, .nestingTooDeep position ∈ state.warnings
  /-- No right parenthesis is skipped if no left one was. -/
  skipped_eq : state.limited = false → state.skipped = 0

theorem State.Honest.step (honest : state.Honest) (default : Conjunction) (token : Token) :
    (step default state token).Honest := by
  constructor
  · intro limited
    rw [step_warnings]
    cases before : state.limited with
    | true =>
      obtain ⟨position, recorded⟩ := honest.recorded before
      exact ⟨position, List.mem_append_right _ recorded⟩
    | false =>
      -- this very token is the first one that is skipped
      have skips : state.Skips token := by simpa [before] using (step_limited_iff default).1 limited
      have reported : state.report default token = [.nestingTooDeep state.position] := by
        obtain ⟨limit, rfl | rfl⟩ := skips <;>
          simp [State.report, State.depthReport, limit, before]
      exact ⟨state.position, by simp [reported]⟩
  · intro limited
    have before : ¬(state.limited = true ∨ state.Skips token) := by
      rw [← step_limited_iff default, limited]
      simp
    obtain ⟨unlimited, keeps⟩ := not_or.1 before
    have noneSkipped := honest.skipped_eq (by simpa using unlimited)
    exact (step_effect default state token).skipped_eq_zero keeps noneSkipped

theorem honest_run (tokens : List Token) : (run default .initial tokens).Honest := by
  have kept (state : State) (token : Token) (_ : token ∈ tokens) (honest : state.Honest) :
      (step default state token).Honest := honest.step default token
  have start : State.initial.Honest := ⟨by simp [State.initial], fun _ => rfl⟩
  exact run_keeps kept start

theorem Parsed.Shallow.limited_eq {tokens : List Token} (shallow : (parse default tokens).Shallow) :
    (run default .initial tokens).limited = false := by
  rw [Bool.eq_false_iff]
  intro limited
  obtain ⟨position, recorded⟩ := (honest_run tokens).recorded limited
  apply shallow position
  rw [parse, finish_warnings]
  exact List.mem_append_left _ (List.mem_reverse.2 recorded)

/-- If no token was skipped, what every step keeps that skips nothing holds at the end of the
tokens. -/
theorem run_keeps_of_unlimited {holds : List Token → State → Prop} (start : holds [] .initial)
    (keeps : ∀ (before : List Token) (state : State) (token : Token),
      state.position = before.length → state.skipped = 0 → ¬state.Skips token →
      holds before state → holds (before ++ [token]) (step default state token))
    {tokens : List Token} (limited : (run default .initial tokens).limited = false) :
    holds tokens (run default .initial tokens) := by
  induction tokens using List.reverseRecOn with
  | nil => exact start
  | append_singleton before token ih =>
    rw [run_concat] at limited ⊢
    have earlier : ¬((run default .initial before).limited = true ∨
        (run default .initial before).Skips token) := by
      rw [← step_limited_iff default, limited]
      simp
    obtain ⟨limited', room⟩ := not_or.1 earlier
    have unlimited : (run default .initial before).limited = false := by simpa using limited'
    exact keeps before _ token (run_initial_position default before)
      ((honest_run before).skipped_eq unlimited) room (ih unlimited)

end Parser

end SearchKeys
