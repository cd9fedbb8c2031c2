/-
# Expressions and the height of their trees

What a reader sees in keys is an expression: operands with operators or nothing between them,
where an operand is a key, a negation or an expression in parentheses. Folding an expression
nests deeper than its parentheses and negations do, because every change of the operator makes
a new group of everything on its left.

## Main definitions

* `Operand`, `Expression`: the expressions of the keys language.
* `Expression.node`: the tree of an expression.
* `Expression.nesting`: the greatest number of parentheses and negations around a key.
* `Expression.levels`, `Expression.changes`: the number of levels of an expression, and how often
  the operator changes in it.

## Main results

* `Expression.height_node`: the tree of an expression is as high as the expression has levels.
* `Expression.levels_le`: the levels beyond the nesting come from changes of the operator.
-/

import SearchKeys.Proofs.Query.Step
import SearchKeys.Proofs.Query.Tree
import Mathlib.Data.List.Perm.Basic

namespace SearchKeys

mutual

/-- An operand of an expression. -/
inductive Operand
  /-- A term or a phrase. -/
  | key (text : String)
  /-- An operand behind a `NOT`. -/
  | not (operand : Operand)
  /-- An expression in parentheses. -/
  | parens (inner : Expression)

/-- An expression of the keys language, grouped from the left. -/
inductive Expression
  /-- A single operand. -/
  | single (operand : Operand)
  /-- An expression followed by one more operand, with or without an operator in front of it. -/
  | follow (left : Expression) (link : Option Conjunction) (operand : Operand)

end

/-! ### Trees -/

section Trees

variable (default : Conjunction)

mutual

/-- The tree of an operand. Parentheses leave no trace in it. -/
def Operand.node : Operand → Node
  | .key text => .keys text
  | .not operand => operand.node.not
  -- an expression has an operand, so that its fold is not empty
  | .parens inner => (inner.fold.finish default).getD (.group default false [])

/-- The fold of the operands of an expression. -/
def Expression.fold : Expression → Fold
  | .single operand => .run [operand.node]
  | .follow left link operand => left.fold.attach default link operand.node

end

/-- The tree of an expression. -/
def Expression.node (expression : Expression) : Node :=
  ((expression.fold default).finish default).getD (.group default false [])

end Trees

/-! ### Levels -/

/-- What stands in front of the last operand, if it is not the only one. -/
def Expression.lastLink? : Expression → Option (Option Conjunction)
  | single _ => none
  | follow _ link _ => some link

mutual

/-- The greatest number of parentheses and negations around a key of the operand. -/
def Operand.nesting : Operand → Nat
  | .key _ => 0
  | .not operand => operand.nesting + 1
  | .parens inner => inner.nesting + 1

/-- The greatest number of parentheses and negations around a key of the expression. -/
def Expression.nesting : Expression → Nat
  | .single operand => operand.nesting
  | .follow left _ operand => max left.nesting operand.nesting

end

mutual

/-- The number of levels of an operand: one for each negation, and those of the expressions in
its parentheses. -/
def Operand.levels : Operand → Nat
  | .key _ => 0
  | .not operand => operand.levels + 1
  | .parens inner => inner.levels

/-- The number of levels of an expression. The second operand adds a level around the first
one, and each operand behind another operator than the operand before it adds a level around
everything on its left. -/
def Expression.levels : Expression → Nat
  | .single operand => operand.levels
  | .follow left link operand =>
    if left.lastLink? = some link then max left.levels (operand.levels + 1)
    else max left.levels operand.levels + 1

end

mutual

/-- How often the operator changes in the expressions of an operand. -/
def Operand.changes : Operand → Nat
  | .key _ => 0
  | .not operand => operand.changes
  | .parens inner => inner.changes

/-- How often the operator in an expression changes from one operand to the next, the
expressions in its parentheses included. -/
def Expression.changes : Expression → Nat
  | .single operand => operand.changes
  | .follow left link operand =>
    left.changes + operand.changes + if left.lastLink?.any (· ≠ link) then 1 else 0

end

mutual

private theorem Operand.levels_le (operand : Operand) :
    operand.levels ≤ operand.nesting + operand.changes := by
  match operand with
  | .key text => simp [Operand.levels]
  | .not operand =>
    have inner := operand.levels_le
    simp only [Operand.levels, Operand.nesting, Operand.changes]
    omega
  | .parens inner =>
    have inner := inner.levels_le
    simp only [Operand.levels, Operand.nesting, Operand.changes]
    omega

/-- Changes of the operator aside, an expression has one level more than its parentheses and
negations nest. -/
theorem Expression.levels_le (expression : Expression) :
    expression.levels ≤ expression.nesting + 1 + expression.changes := by
  match expression with
  | .single operand =>
    have alone := operand.levels_le
    simp only [Expression.levels, Expression.nesting, Expression.changes]
    omega
  | .follow left link operand =>
    have last := operand.levels_le
    have before := left.levels_le
    simp only [Expression.levels, Expression.nesting, Expression.changes]
    by_cases same : left.lastLink? = some link
    · simp [same]
      omega
    · rw [if_neg same]
      match left with
      | .single first =>
        -- the second operand makes the only level that parentheses and negations do not count
        have alone := first.levels_le
        simp only [Expression.levels, Expression.nesting, Expression.changes] at before ⊢
        simp [Expression.lastLink?]
        omega
      | .follow left' link' operand' =>
        -- a later one makes another level only if the operator changes
        have other : link' ≠ link := fun equal => same (by rw [equal]; rfl)
        simp [Expression.lastLink?, other]
        omega

end

/-! ### Heights -/

namespace Fold

variable {default conjunction : Conjunction} {link : Option Conjunction} {node : Node}
  {fold : Fold}

/-- What stands in front of the last operand, if there are several. -/
def lastLink? : Fold → Option (Option Conjunction)
  | run (_ :: _ :: _) => some none
  | run _ => none
  | chain conjunction _ => some (some conjunction)

/-- The height of the tree of everything folded so far. -/
def height (default : Conjunction) (fold : Fold) : Nat :=
  (fold.finish default).elim 0 Node.height

/-- The greatest height of some trees. -/
def tallest (nodes : List Node) : Nat :=
  (nodes.map Node.height).foldr max 0

@[simp] theorem tallest_cons (nodes : List Node) :
    tallest (node :: nodes) = max node.height (tallest nodes) := rfl

@[simp] theorem tallest_nil : tallest [] = 0 := rfl

theorem height_group_reverse (nodes : List Node) :
    (Node.group conjunction false nodes.reverse).height = tallest nodes + 1 := by
  rw [Node.height, tallest, (nodes.reverse_perm.map Node.height).foldr_eq]

theorem height_run (node : Node) : (run [node]).height default = node.height := rfl

theorem height_run_several (first second : Node) (rest : List Node) :
    (run (first :: second :: rest)).height default = tallest (first :: second :: rest) + 1 :=
  height_group_reverse _

theorem height_chain (operands : List Node) :
    (chain conjunction operands).height default = tallest operands + 1 :=
  height_group_reverse _

/-- An operand behind another operator than the last one makes a group of everything in front of
it. -/
theorem attach_of_ne {left : Node} (finished : fold.finish default = some left)
    (other : fold.lastLink? ≠ some link) :
    fold.attach default link node =
      match link with
      | none => run [node, left]
      | some conjunction => chain conjunction [node, left] := by
  match fold, link with
  | run [], _ => cases finished
  | run [first], none =>
    obtain rfl := Option.some.inj finished
    rfl
  | run (first :: second :: rest), none => exact absurd rfl other
  | run (first :: rest), some conjunction =>
    have joined : joinRun default (first :: rest) = some left := finished
    simp [attach, combine, joined]
  | chain previous operands, none =>
    obtain rfl := Option.some.inj finished
    rfl
  | chain previous operands, some conjunction =>
    obtain rfl := Option.some.inj finished
    have differ : previous ≠ conjunction := by
      rintro rfl
      exact other rfl
    simp [attach, combine, differ]

/-- An operand that repeats the operator in front of the last one joins the others; any other
operand adds a level around everything in front of it. -/
theorem height_attach (default : Conjunction) (link : Option Conjunction) (node : Node)
    (notEmpty : fold.isEmpty = false) :
    (fold.attach default link node).lastLink? = some link ∧
    (fold.attach default link node).height default =
      if fold.lastLink? = some link then max (fold.height default) (node.height + 1)
      else max (fold.height default) node.height + 1 := by
  by_cases same : fold.lastLink? = some link
  · -- the operand joins the run or the chain that is there
    rw [if_pos same]
    match fold, same with
    | run (first :: second :: rest), rfl =>
      exact ⟨rfl, by simp [attach, push, height_run_several, max_comm]⟩
    | chain conjunction operands, rfl =>
      simp [attach, combine, height_chain, lastLink?, max_comm]
  · obtain ⟨left, finished⟩ := exists_finish default notEmpty
    have before : fold.height default = left.height := by
      rw [height, finished]
      rfl
    rw [if_neg same, attach_of_ne finished same, before]
    cases link with
    | none => exact ⟨rfl, by simp [height_run_several, max_comm]⟩
    | some conjunction => exact ⟨rfl, by simp [height_chain, max_comm]⟩

end Fold

section Expressions

variable {default : Conjunction}

theorem Expression.isEmpty_fold (default : Conjunction) (expression : Expression) :
    (expression.fold default).isEmpty = false := by
  cases expression with
  | single operand => rfl
  | follow left link operand => exact Fold.isEmpty_attach

/-- The fold of an expression yields its tree. -/
theorem Expression.finish_fold (expression : Expression) :
    (expression.fold default).finish default = some (expression.node default) := by
  obtain ⟨node, finished⟩ := Fold.exists_finish default (expression.isEmpty_fold default)
  rw [Expression.node, finished, Option.getD_some]

mutual

private theorem Operand.height_node (default : Conjunction) (operand : Operand) :
    (operand.node default).height = operand.levels := by
  match operand with
  | .key text => simp [Operand.node, Operand.levels]
  | .not operand => simp [Operand.node, Operand.levels, operand.height_node default]
  | .parens inner =>
    have folded := (inner.height_fold default).2
    rw [Fold.height, inner.finish_fold] at folded
    simpa [Operand.node, Operand.levels, inner.finish_fold] using folded

private theorem Expression.height_fold (default : Conjunction) (expression : Expression) :
    (expression.fold default).lastLink? = expression.lastLink? ∧
      (expression.fold default).height default = expression.levels := by
  match expression with
  | .single operand => exact ⟨rfl, operand.height_node default⟩
  | .follow left link operand =>
    have before := left.height_fold default
    have attached := Fold.height_attach default link (operand.node default)
      (left.isEmpty_fold default)
    rw [before.1, before.2, operand.height_node default] at attached
    exact attached

end

/-- The tree of an expression is as high as the expression has levels. -/
theorem Expression.height_node (expression : Expression) :
    (expression.node default).height = expression.levels := by
  have folded := (expression.height_fold default).2
  rw [Fold.height, expression.finish_fold] at folded
  exact folded

end Expressions

end SearchKeys
