/-
# What the parser can build

The parser builds trees from keys by negating a tree and by grouping at least two of them.
A property of trees that survives both holds of every tree it returns.

## Main definitions

* `Node.Buildable`: a property that negation and grouping keep.
* `Fold.All`: a property holds of everything folded so far.
* `Node.Gathers`, `Fold.gather`: what is read off a tree from left to right.

## Main results

* `Fold.gather_attach`: folding an operand keeps the order of what is read.
* `Parser.parse_induction`: a property of the keys that negation and grouping keep is one of
  the returned tree.
* `Parser.parse_wellFormed`: the returned tree is well formed.
-/

import SearchKeys.Proofs.Query.Step
import SearchKeys.Proofs.Query.Tree

namespace SearchKeys

/-- Negating a tree and grouping two or more trees keep the property. -/
structure Node.Buildable (holds : Node → Prop) : Prop where
  /-- The negation of a tree has it too. -/
  not {node : Node} (inner : holds node) : holds node.not
  /-- A group of at least two trees has it if all of them do. -/
  group {conjunction : Conjunction} {children : List Node} (several : 2 ≤ children.length)
    (inner : ∀ child ∈ children, holds child) : holds (.group conjunction false children)

namespace Fold

variable {holds : Node → Prop} {default conjunction : Conjunction} {node : Node} {fold : Fold}

/-- The property holds of everything folded so far, and a chain has two or more operands. -/
def All (holds : Node → Prop) : Fold → Prop
  | run members => ∀ member ∈ members, holds member
  | chain _ operands => 2 ≤ operands.length ∧ ∀ operand ∈ operands, holds operand

theorem All.chainNode (build : Node.Buildable holds) {operands : List Node}
    (all : (chain conjunction operands).All holds) :
    holds (.group conjunction false operands.reverse) :=
  build.group (by simpa using all.1) (by simpa using all.2)

theorem All.joinRun (build : Node.Buildable holds) {members : List Node}
    (all : (run members).All holds) (joined : joinRun default members = some node) :
    holds node := by
  match members, joined with
  | [member], rfl => exact all member (.head _)
  | first :: second :: members, rfl =>
    exact build.group (by simp) fun child inside => all child (List.mem_reverse.1 inside)

theorem All.finish (build : Node.Buildable holds) (all : fold.All holds)
    (finished : fold.finish default = some node) : holds node := by
  cases fold with
  | run members => exact all.joinRun build finished
  | chain conjunction operands =>
    obtain rfl := Option.some.inj finished
    exact all.chainNode build

theorem All.push (build : Node.Buildable holds) (all : fold.All holds) (new : holds node) :
    (fold.push node).All holds := by
  cases fold with
  | run members => simpa [Fold.push, All] using ⟨new, all⟩
  | chain conjunction operands => simpa [Fold.push, All] using ⟨new, all.chainNode build⟩

theorem All.combine (build : Node.Buildable holds) (all : fold.All holds) (new : holds node) :
    (fold.combine default conjunction node).All holds := by
  cases fold with
  | run members =>
    rw [Fold.combine]
    split
    · simpa [All] using new
    · next left joined => simpa [All] using ⟨new, all.joinRun build joined⟩
  | chain previous operands =>
    rw [Fold.combine]
    split
    · exact ⟨by simpa using all.1.trans (Nat.le_succ _), by simpa using ⟨new, all.2⟩⟩
    · simpa [All] using ⟨new, all.chainNode build⟩

theorem All.attach (build : Node.Buildable holds) {link : Option Conjunction}
    (all : fold.All holds) (new : holds node) : (fold.attach default link node).All holds := by
  cases link with
  | none => exact all.push build new
  | some conjunction => exact all.combine build new

end Fold

/-! ### What is read off the parts of a tree -/

section Gather

variable {α : Type} {read : Node → List α}

/-- What is read off a group that is not negated is read off its children, one after the other. -/
def Node.Gathers (read : Node → List α) : Prop :=
  ∀ conjunction children, read (.group conjunction false children) = children.flatMap read

namespace Fold

variable {default conjunction : Conjunction} {node : Node} {fold : Fold}

/-- What is read off everything folded so far, in order. -/
def gather (read : Node → List α) : Fold → List α
  | run members => members.reverse.flatMap read
  | chain _ operands => operands.reverse.flatMap read

theorem gather_joinRun (gathers : Node.Gathers read) (default : Conjunction)
    (members : List Node) :
    (joinRun default members).elim [] read = (run members).gather read := by
  match members with
  | [] => rfl
  | [member] => simp [joinRun, gather]
  | first :: second :: members => exact gathers ..

theorem gather_finish (gathers : Node.Gathers read) (default : Conjunction) (fold : Fold) :
    (fold.finish default).elim [] read = fold.gather read := by
  cases fold with
  | run members => exact gather_joinRun gathers default members
  | chain conjunction operands => exact gathers ..

theorem gather_push (gathers : Node.Gathers read) :
    (fold.push node).gather read = fold.gather read ++ read node := by
  cases fold with
  | run members => simp [push, gather]
  | chain conjunction operands => simp [push, gather, gathers conjunction]

theorem gather_combine (gathers : Node.Gathers read) :
    (fold.combine default conjunction node).gather read = fold.gather read ++ read node := by
  cases fold with
  | run members =>
    have joined := gather_joinRun gathers default members
    rw [combine]
    split
    · next nothing => rw [← joined, nothing]; simp [gather]
    · next left something => rw [← joined, something]; simp [gather]
  | chain previous operands =>
    rw [combine]
    split
    · simp [gather]
    · simp [gather, gathers previous]

/-- Whatever stands in front of an operand, what is read off it comes last. -/
theorem gather_attach (gathers : Node.Gathers read) {link : Option Conjunction} :
    (fold.attach default link node).gather read = fold.gather read ++ read node := by
  cases link with
  | none => exact gather_push gathers
  | some conjunction => exact gather_combine gathers

end Fold

end Gather

/-! ### Runs of the parser -/

namespace Parser

variable {holds : Node → Prop} {default : Conjunction} {frame : Frame} {outer : List Frame}

theorem Frame.negated_holds (build : Node.Buildable holds) {operand : Node}
    (new : holds operand) : holds (frame.negated operand) := by
  unfold negated
  induction frame.negations.length generalizing operand with
  | zero => exact new
  | succ count ih => exact ih (build.not new)

theorem Frame.resolve_all (build : Node.Buildable holds) (operand : Option Node)
    (all : frame.fold.All holds) (new : ∀ node, operand = some node → holds node) :
    (frame.resolve default operand).1.fold.All holds := by
  cases operand with
  | none => exact all
  | some node =>
    rw [Frame.resolve_some, Frame.accept_fst]
    exact all.attach build (Frame.negated_holds build (new node rfl))

/-- The property holds of all operands of the open expressions. -/
def AllFrames (holds : Node → Prop) (frame : Frame) (outer : List Frame) : Prop :=
  ∀ open' ∈ frame :: outer, open'.fold.All holds

theorem Effect.allFrames (build : Node.Buildable holds) {state : State} {token : Token}
    {skipped : Nat} (effect : Effect default state token frame outer skipped)
    (key : ∀ text, token.key? = some text → holds (.keys text))
    (all : AllFrames holds state.frame state.outer) : AllFrames holds frame outer := by
  simp only [AllFrames, List.mem_cons, forall_eq_or_imp] at all ⊢
  cases effect with
  | @key _ text carries =>
    refine ⟨Frame.resolve_all build (some _) all.1 ?_, all.2⟩
    rintro _ ⟨⟩
    exact key text carries
  | openGroup room => exact ⟨by simp [Frame.fresh, Fold.empty, Fold.All], by simpa using all⟩
  | closeGroup noneSkipped inside =>
    simp only [inside, List.mem_cons, forall_eq_or_imp] at all
    exact ⟨Frame.resolve_all build _ all.2.1 fun _ finished => all.1.finish build finished, all.2.2⟩
  | _ => exact all

theorem nodeOf_holds (build : Node.Buildable holds) {node : Node}
    (all : AllFrames holds frame outer) (closed : nodeOf default frame outer = some node) :
    holds node := by
  -- at the end of the tokens every open expression is closed, from the inside out
  induction outer generalizing frame with
  | nil => exact (all frame (.head _)).finish build closed
  | cons around outer ih =>
    refine ih ?_ closed
    simp only [AllFrames, List.mem_cons, forall_eq_or_imp] at all ⊢
    exact ⟨Frame.resolve_all build _ all.2.1 fun _ finished => all.1.finish build finished, all.2.2⟩

/-- A property that the keys among the tokens have, and that negation and grouping keep, is
one of the returned tree. -/
theorem parse_induction (build : Node.Buildable holds) {tokens : List Token} {node : Node}
    (key : ∀ token ∈ tokens, ∀ text, token.key? = some text → holds (.keys text))
    (parsed : (parse default tokens).node = some node) : holds node := by
  rw [parse_node] at parsed
  refine nodeOf_holds build ?_ parsed
  have kept (state : State) (token : Token) (member : token ∈ tokens)
      (all : AllFrames holds state.frame state.outer) :
      AllFrames holds (step default state token).frame (step default state token).outer :=
    (step_effect default state token).allFrames build (key token member) all
  have start : AllFrames holds State.initial.frame State.initial.outer := by
    simp [AllFrames, State.initial, Frame.fresh, Fold.empty, Fold.All]
  exact run_keeps kept start

theorem buildable_wellFormed : Node.Buildable (Node.WellFormed 2) :=
  ⟨.not, .group⟩

/-- In a tree the parser returns, negations have one child and other groups two or more. -/
theorem parse_wellFormed {tokens : List Token} {node : Node}
    (parsed : (parse default tokens).node = some node) : node.WellFormed 2 :=
  parse_induction buildable_wellFormed (fun _ _ text _ => .keys text) parsed

end Parser

end SearchKeys
