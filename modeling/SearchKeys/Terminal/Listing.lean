/-
# Listings of tokens and queries

Tokens are listed one after another, the kind in a column of nine characters in front and a line
feed behind. A query is shown as its outline. Both can be coloured by kind, which adds escape
sequences and changes nothing else.

## Main definitions

* `Terminal.token`: a token in the colour of its kind.
* `Terminal.tokenList`: the listing of some tokens.
* `Terminal.nodeOutline`: a node and what is below it in colour.
* `Terminal.outline`: the outline of a query.
-/

import SearchKeys.Terminal.Style
import SearchKeys.Token
import SearchKeys.Query.Outline

namespace SearchKeys.Terminal

/-- A token in its source form, in the colour of its kind. -/
def token (token : Token) : String :=
  match token with
  | .term text => text
  | .phrase _ => paint [.green] token.source
  | .operator _ => paint [.bold, .magenta] token.source
  | .openParen => dim token.source
  | .closeParen => dim token.source

/-- Text filled up with spaces to the given number of characters. -/
def pad (width : Nat) (text : String) : String :=
  text ++ String.ofList (List.replicate (width - text.length) ' ')

/-- The line of a token: its kind, then its source form. -/
def tokenLine (coloured : Bool) (item : Token) : String :=
  let kind := pad 9 item.kind
  (if coloured then dim kind ++ token item else kind ++ item.source) ++ "\n"

/-- The listing of some tokens. -/
def tokenList (coloured : Bool) (tokens : List Token) : String :=
  String.join (tokens.map (tokenLine coloured))

/-- The heading of a group in the colour of its kind. -/
def groupHeading (conjunction : Conjunction) (negated : Bool) : String :=
  if negated then paint [.bold, .red] "Not" else header conjunction.keyword

/-- A node and what is below it in colour, on a line each. -/
def nodeOutline (depth : Nat) : Node → String
  | .keys text =>
    Outline.indentation depth ++ "Keys(" ++ paint [.green] (Text.quoted text) ++ ")" ++ "\n"
  | .group conjunction negated children =>
    Outline.indentation depth ++ groupHeading conjunction negated ++ "\n" ++
      String.join (children.map (nodeOutline (depth + 1)))

/-- The outline of a query. -/
def outline (coloured : Bool) (query : Group) : String :=
  if coloured then nodeOutline 0 query.node else query.outlineText

end SearchKeys.Terminal
