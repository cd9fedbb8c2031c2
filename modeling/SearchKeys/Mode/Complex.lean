/-
# Boolean keys

The complex mode reads the whole keys language: `foo AND (bar OR "baz qux") NOT quux`.

## Main definitions

* `Mode.analyzeComplex`: tokens, tree and warnings of keys in the keys language.
* `Mode.complex`: the mode.
* `Query.parse`, `Query.ofBytes?`: the tree of a text, and the query in raw keys.
-/

import SearchKeys.Mode
import SearchKeys.Token.Segment
import SearchKeys.Query.Parser

namespace SearchKeys

namespace Mode

/-- Reads keys as a boolean query. Warnings about the tokens come before those about their
order. -/
def analyzeComplex (conjunction : Conjunction) (text : List Char) : Analysis :=
  let (tokens, unclosed) := Token.scan text
  let parsed := Parser.parse conjunction tokens
  ⟨tokens, Group.ofNode? conjunction parsed.node, unclosed ++ parsed.warnings⟩

/-- The mode for boolean keys. -/
def complex (conjunction : Conjunction) : Mode :=
  ofText "complex" "Complex query"
    "Boolean keys with AND, OR, NOT, parentheses and \"quoted phrases\"" conjunction
    (analyzeComplex conjunction)

end Mode

namespace Query

/-- The query tree of a text in the keys language. -/
def parse (conjunction : Conjunction) (text : List Char) : Option Node :=
  (Parser.parse conjunction (Token.ofText text)).node

/-- The query in raw keys in the keys language. -/
def ofBytes? (conjunction : Conjunction) (keys : List UInt8) : Option Group :=
  (Mode.complex conjunction).query? keys

end Query

end SearchKeys
