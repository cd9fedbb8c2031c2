/-
# Queries written as keys

A query can be written back in the keys language. Members of a group are joined by its
operator, a group inside another one stands in parentheses, and a key that would be read as
something else is quoted.

## Main definitions

* `Token.quoteIfNeeded`: a key as a single term or phrase.
* `Group.toText`: a query in the keys language, such as `foo AND (bar OR "baz qux")`.
-/

import SearchKeys.Text.Blank
import SearchKeys.Token
import SearchKeys.Query.Node

namespace SearchKeys

namespace Token

/-- Whether a key would not be read as one bare term. -/
def needsQuotes (text : String) : Bool :=
  text.isEmpty || text.toList.any (fun c => Text.isBlank c || c == '(' || c == ')' || c == '"') ||
    (Operator.ofKeyword? text).isSome

/-- A key written as a bare term if that is possible, and as a phrase otherwise. -/
def quoteIfNeeded (text : String) : String :=
  if needsQuotes text then quote text else text

end Token

/-- A node in the keys language. A nested group with several members takes parentheses. -/
def Node.toText (nested : Bool) : Node → String
  | keys text => Token.quoteIfNeeded text
  | group conjunction negated children =>
    if negated then "NOT " ++ " ".intercalate (children.map (Node.toText true))
    else
      let operator := " " ++ conjunction.keyword ++ " "
      let joined := operator.intercalate (children.map (Node.toText true))
      if nested && decide (1 < children.length) then "(" ++ joined ++ ")" else joined

/-- A query in the keys language. -/
def Group.toText (query : Group) : String :=
  query.node.toText false

end SearchKeys
