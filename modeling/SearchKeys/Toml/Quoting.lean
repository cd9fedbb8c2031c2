/-
# The four forms of a TOML string

A TOML string stands between double or single quotes, one of them on a single line or three
of them over several lines. Between double quotes a backslash starts an escape; between
single quotes every character stands for itself.

## Main definitions

* `Toml.Quoting`: the four forms.
* `Toml.Quoting.escapes`: whether a backslash is special.
* `Toml.isPlain`: the characters that may stand in a string as they are.
-/

namespace SearchKeys.Toml

/-- The four forms of a string. -/
inductive Quoting
  /-- Between double quotes. -/
  | basic
  /-- Between single quotes. -/
  | literal
  /-- Between three double quotes, over several lines. -/
  | multilineBasic
  /-- Between three single quotes, over several lines. -/
  | multilineLiteral
  deriving DecidableEq, Repr

namespace Quoting

/-- The quote of a form. -/
def quote : Quoting → Char
  | basic | multilineBasic => '"'
  | literal | multilineLiteral => '\''

/-- Whether a string of the form may go over several lines. -/
def multiline : Quoting → Bool
  | basic | literal => false
  | multilineBasic | multilineLiteral => true

/-- Whether a backslash starts an escape. -/
def escapes : Quoting → Bool
  | basic | multilineBasic => true
  | literal | multilineLiteral => false

/-- The quotes around a string of the form. -/
def delimiter (form : Quoting) : List Char :=
  List.replicate (if form.multiline then 3 else 1) form.quote

end Quoting

/-- The characters that may stand in a comment or a string as they are: all but the controls,
of which only the tab may. -/
def isPlain (c : Char) : Bool :=
  c == '\t' || (0x20 ≤ c.toNat && c.toNat != 0x7F)

end SearchKeys.Toml
