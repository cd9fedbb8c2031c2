/-
# Tokens of the keys language

Keys are a sequence of bare terms, quoted phrases, operators and parentheses.

## Main definitions

* `Operator`, `Token`: the tokens.
* `Operator.ofKeyword?`: the operator spelled by a word, in capitals only.
* `Token.value`, `Token.kind`: the text a token carries and the name of its kind.
* `Token.source`: a token as it would be written in keys.

## Main results

* `Operator.ofKeyword?_eq_some_iff`: a word is an operator exactly if it is its keyword.
-/

import SearchKeys.Query.Conjunction

namespace SearchKeys

/-- The operators of the keys language. -/
inductive Operator
  | and
  | or
  | not
  deriving DecidableEq, Repr

namespace Operator

/-- The spelling of an operator. -/
def keyword : Operator → String
  | and => "AND"
  | or => "OR"
  | not => "NOT"

/-- The operator spelled by a word. Other cases of its letters are ordinary words. -/
def ofKeyword? (word : String) : Option Operator :=
  [and, or, not].find? fun operator => operator.keyword == word

/-- A word is an operator exactly if it is the keyword of that operator. -/
theorem ofKeyword?_eq_some_iff {word : String} {operator : Operator} :
    ofKeyword? word = some operator ↔ operator.keyword = word := by
  constructor
  · intro found
    simpa using List.find?_some found
  · rintro rfl
    cases operator <;> decide

/-- The operator that writes a conjunction. -/
def ofConjunction : Conjunction → Operator
  | .and => and
  | .or => or

end Operator

/-- A token of the keys language. -/
inductive Token
  /-- A bare word. -/
  | term (text : String)
  /-- The text between two double quotes. -/
  | phrase (text : String)
  /-- One of the keywords `AND`, `OR` and `NOT`. -/
  | operator (op : Operator)
  /-- A left parenthesis. -/
  | openParen
  /-- A right parenthesis. -/
  | closeParen
  deriving DecidableEq, Repr

namespace Token

/-- The text that a token carries. -/
def value : Token → String
  | term text => text
  | phrase text => text
  | operator op => op.keyword
  | openParen => "("
  | closeParen => ")"

/-- The name of the kind of a token. -/
def kind : Token → String
  | term _ => "term"
  | phrase _ => "phrase"
  | operator _ => "operator"
  | openParen => "open"
  | closeParen => "close"

/-- The search key that a term or a phrase stands for. -/
def key? : Token → Option String
  | term text => some text
  | phrase text => some text
  | _ => none

/-- How a character is written inside a phrase: a double quote takes a backslash, and
everything else, a backslash included, stands for itself. -/
def phraseChar (c : Char) : List Char :=
  if c = '"' then ['\\', '"'] else [c]

/-- The text written between double quotes, as a phrase of the keys language. -/
def quote (text : String) : String :=
  String.ofList ('"' :: text.toList.flatMap phraseChar ++ ['"'])

/-- A token as it would be written in keys. -/
def source : Token → String
  | phrase text => quote text
  | token => token.value

end Token

end SearchKeys
