/-
# Outlines of queries

An outline shows a query tree with one line per node, indented by two spaces per level.

## Main definitions

* `Outline.Label`, `Outline.Line`: what stands on a line, and how deep it is.
* `Node.outline`: the lines of a node.
* `Node.outlineText`: the outline as text.
-/

import SearchKeys.Text.Quoted
import SearchKeys.Query.Node

namespace SearchKeys

namespace Outline

/-- What an outline shows of a node. -/
inductive Label
  /-- A negated group. -/
  | negation
  /-- Any other group. -/
  | conjunction (conjunction : Conjunction)
  /-- A search key. -/
  | keys (text : String)
  deriving DecidableEq, Repr

/-- A line of an outline. -/
structure Line where
  /-- The number of groups around the node. -/
  depth : Nat
  /-- What is shown of the node. -/
  label : Label
  deriving DecidableEq, Repr

/-- The spaces in front of a line. -/
def indentation (depth : Nat) : String :=
  String.join (List.replicate depth "  ")

/-- The label of a line as text. A key is shown as a quoted string. -/
def Label.text : Label → String
  | negation => "Not"
  | conjunction connective => connective.keyword
  | keys text => "Keys(" ++ Text.quoted text ++ ")"

/-- A line with its indentation and its end. -/
def Line.text (line : Line) : String :=
  indentation line.depth ++ line.label.text ++ "\n"

end Outline

namespace Node

/-- The label of a group, which shows its conjunction only if it is not negated. -/
def groupLabel (conjunction : Conjunction) (negated : Bool) : Outline.Label :=
  if negated then .negation else .conjunction conjunction

/-- The lines of a node and of what is below it. -/
def outline (depth : Nat) : Node → List Outline.Line
  | keys text => [⟨depth, .keys text⟩]
  | group conjunction negated children =>
    ⟨depth, groupLabel conjunction negated⟩ :: children.flatMap (outline (depth + 1))

/-- The outline of a node as text. -/
def outlineText (node : Node) : String :=
  String.join ((node.outline 0).map Outline.Line.text)

end Node

/-- The outline of a query as text. -/
def Group.outlineText (query : Group) : String :=
  query.node.outlineText

end SearchKeys
