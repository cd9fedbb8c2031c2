/-
# Warnings

Keys that can be read at all are never refused. What was tolerated in them is recorded as
warnings.

## Main definitions

* `Warning`: what was tolerated, and where.
* `Warning.message`: its wording.
* `maxDepth`: how deep groups and negations may nest.
-/

import SearchKeys.Token

namespace SearchKeys

/-- The number of groups and negations that may be nested in keys. -/
def maxDepth : Nat := 128

/-- Something in the keys that was tolerated. -/
inductive Warning
  /-- A double quote without a partner, at this byte of the keys, stands for itself. -/
  | unterminatedQuote (byte : Nat)
  /-- A group was still open at the end. -/
  | unclosedGroup
  /-- A right parenthesis without a partner, at this position among the tokens. -/
  | unmatchedCloseParen (token : Nat)
  /-- An operator that lacks an operand, with its position among the tokens. -/
  | danglingOperator (operator : Operator) (token : Nat)
  /-- The first token that would have nested too deep. -/
  | nestingTooDeep (token : Nat)
  deriving DecidableEq, Repr

/-- The wording of a warning. -/
def Warning.message : Warning → String
  | unterminatedQuote byte =>
    "unterminated quote at byte " ++ toString byte ++ " treated as a term"
  | unclosedGroup => "missing closing parenthesis at end of input"
  | unmatchedCloseParen token =>
    "unmatched closing parenthesis at token " ++ toString token ++ " ignored"
  | danglingOperator operator token =>
    "operator " ++ operator.keyword ++ " at token " ++ toString token ++
      " has no operand, ignored"
  | nestingTooDeep token =>
    "nesting deeper than " ++ toString maxDepth ++ " levels at token " ++ toString token ++
      " ignored"

end SearchKeys
