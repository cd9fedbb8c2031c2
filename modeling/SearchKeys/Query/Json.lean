/-
# Queries as JSON

A search backend takes a query as JSON. A search key is a string; a group is an object with
the fields `conjunction`, `negation` and `children`, in this order.

## Main definitions

* `Json.escapedChar`, `Json.string`: strings between double quotes.
* `Node.json`: a node without any blank between its parts.
* `Node.prettyJson`: a node with one part per line, indented by two spaces per level.
* `Group.prettyJson?`: a query, or `null` where there is none, with a final line end.
-/

import SearchKeys.Query.Node

namespace SearchKeys

namespace Json

/-- The two lower-case hexadecimal digits of a number below 256. -/
def twoDigits (number : Nat) : List Char :=
  [Nat.digitChar (number / 16), Nat.digitChar (number % 16)]

/-- How a character is written in a JSON string. Only quotes, backslashes and the controls
below the space are escaped. -/
def escapedChar (c : Char) : List Char :=
  if c = '"' then ['\\', '"']
  else if c = '\\' then ['\\', '\\']
  else if c = '\x08' then ['\\', 'b']
  else if c = '\x0c' then ['\\', 'f']
  else if c = '\n' then ['\\', 'n']
  else if c = '\r' then ['\\', 'r']
  else if c = '\t' then ['\\', 't']
  else if c.toNat < 0x20 then ['\\', 'u', '0', '0'] ++ twoDigits c.toNat
  else [c]

/-- A JSON string. -/
def string (text : String) : String :=
  String.ofList ('"' :: text.toList.flatMap escapedChar ++ ['"'])

/-- A JSON truth value. -/
def bool (value : Bool) : String :=
  if value then "true" else "false"

/-- A line end and the indentation of the next line. -/
def newLine (depth : Nat) : String :=
  "\n" ++ String.join (List.replicate depth "  ")

end Json

namespace Node

/-- A node as JSON without blanks between its parts. -/
def json : Node → String
  | keys text => Json.string text
  | group conjunction negated children =>
    "\x7b\"conjunction\":" ++ Json.string conjunction.keyword ++
      ",\"negation\":" ++ Json.bool negated ++
      ",\"children\":[" ++ ",".intercalate (children.map json) ++ "]\x7d"

/-- A node as JSON with one part per line. A list without members takes no line of its
own. -/
def prettyJson (depth : Nat) : Node → String
  | keys text => Json.string text
  | group conjunction negated children =>
    "\x7b" ++ Json.newLine (depth + 1) ++
      "\"conjunction\": " ++ Json.string conjunction.keyword ++ "," ++ Json.newLine (depth + 1) ++
      "\"negation\": " ++ Json.bool negated ++ "," ++ Json.newLine (depth + 1) ++
      "\"children\": [" ++
      (if children.isEmpty then ""
        else
          Json.newLine (depth + 2) ++
            ("," ++ Json.newLine (depth + 2)).intercalate
              (children.map (prettyJson (depth + 2))) ++
            Json.newLine (depth + 1)) ++
      "]" ++ Json.newLine depth ++ "\x7d"

end Node

namespace Group

/-- A query as JSON without blanks between its parts. -/
def json (query : Group) : String :=
  query.node.json

/-- A query as JSON with one part per line and a final line end; `null` stands for no
query. -/
def prettyJson? : Option Group → String
  | none => "null\n"
  | some query => query.node.prettyJson 0 ++ "\n"

end Group

end SearchKeys
