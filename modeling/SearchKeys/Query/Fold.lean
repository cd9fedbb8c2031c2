/-
# Folding an expression

Operators have no precedence: an expression is folded strictly from left to right, so
`a OR b AND c` is `(a OR b) AND c`. Repeating an operator extends the group it built.
Operands next to each other form a run that is combined with a default conjunction, unless
one of them is a negation; then the whole run must match.

## Main definitions

* `Fold`: what has been folded so far.
* `Fold.push`: an operand that follows with no operator in between.
* `Fold.combine`: an operand that follows an operator.
* `Fold.finish`: the node of the whole expression.
-/

import SearchKeys.Query.Node

namespace SearchKeys

/-- An expression under construction. -/
inductive Fold
  /-- A run of operands with no operator between them, latest first. -/
  | run (members : List Node)
  /-- A group built by one operator that can still be extended by it, latest operand
  first. -/
  | chain (conjunction : Conjunction) (operands : List Node)
  deriving Repr

namespace Fold

/-- Nothing has been folded yet. -/
def empty : Fold := run []

/-- Whether nothing has been folded yet. -/
def isEmpty : Fold → Bool
  | run members => members.isEmpty
  | chain _ _ => false

/-- A run, given latest first, as one node. A run with a negation must match as a whole;
any other takes the default conjunction. -/
def joinRun (default : Conjunction) : List Node → Option Node
  | [] => none
  | [node] => some node
  | members =>
    some (.group (if members.any Node.isNegation then .and else default) false members.reverse)

/-- The node of the whole expression. -/
def finish (default : Conjunction) : Fold → Option Node
  | run members => joinRun default members
  | chain conjunction operands => some (.group conjunction false operands.reverse)

/-- Adds an operand that follows the previous one with no operator in between. -/
def push (node : Node) : Fold → Fold
  | run members => run (node :: members)
  | chain conjunction operands => run [node, .group conjunction false operands.reverse]

/-- Combines everything folded so far with an operand that follows an operator. The group of
the previous operator is extended if it was the same. -/
def combine (default conjunction : Conjunction) (node : Node) : Fold → Fold
  | run members =>
    match joinRun default members with
    | none => run [node]
    | some left => chain conjunction [node, left]
  | chain previous operands =>
    -- another operator takes the whole group as its left operand
    if previous = conjunction then chain conjunction (node :: operands)
    else chain conjunction [node, .group previous false operands.reverse]

end Fold

end SearchKeys
