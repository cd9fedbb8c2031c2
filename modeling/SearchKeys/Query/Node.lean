/-
# Query trees

A query is a tree. Its leaves are plain search keys, its inner nodes groups that combine
their children with a conjunction; a negated group must not match.

## Main definitions

* `Node`, `Group`: a node of a query tree, and a node that is a group.
* `Node.not`: the negation of a node.
* `Node.leaves`: the search keys of a node in order.
* `Group.ofNode?`: a parsed node as a query.

## Main results

* `Group.node_injective`: a group is determined by its node.
-/

import SearchKeys.Query.Conjunction

namespace SearchKeys

/-- A node of a query tree. -/
inductive Node
  /-- A bare term or phrase, without quotes. -/
  | keys (text : String)
  /-- The children combined by a conjunction; as a whole they must not match if negated. -/
  | group (conjunction : Conjunction) (negated : Bool) (children : List Node)
  deriving Repr, Inhabited

/-- A node of a query tree that is a group. -/
structure Group where
  /-- How the children are combined. -/
  conjunction : Conjunction
  /-- Whether the group as a whole must not match. -/
  negated : Bool
  /-- The children in input order. -/
  children : List Node
  deriving Repr

namespace Node

mutual

/-- Equality of nodes can be decided. -/
def decEq : (first second : Node) → Decidable (first = second)
  | keys text, keys other =>
    if same : text = other then isTrue (by rw [same]) else isFalse (by simpa using same)
  | keys _, group _ _ _ => isFalse (by simp)
  | group _ _ _, keys _ => isFalse (by simp)
  | group conjunction negated children, group conjunction' negated' children' =>
    -- the children are compared only if all else agrees
    if same : conjunction = conjunction' ∧ negated = negated' then
      match decEqChildren children children' with
      | isTrue equal => isTrue (by simp [same, equal])
      | isFalse different => isFalse (by simp [different])
    else isFalse (by rintro ⟨⟩; exact same ⟨rfl, rfl⟩)

/-- Equality of lists of nodes can be decided. -/
def decEqChildren : (first second : List Node) → Decidable (first = second)
  | [], [] => isTrue rfl
  | [], _ :: _ => isFalse (by simp)
  | _ :: _, [] => isFalse (by simp)
  | node :: nodes, node' :: nodes' =>
    match decEq node node' with
    | isFalse different => isFalse (by simp [different])
    | isTrue equal =>
      match decEqChildren nodes nodes' with
      | isFalse different => isFalse (by simp [different])
      | isTrue equalRest => isTrue (by simp [equal, equalRest])

end

instance : DecidableEq Node := decEq

/-- Whether the node is a negated group. -/
def isNegation : Node → Bool
  | keys _ => false
  | group _ negated _ => negated

/-- The negation of a node: a negated group with this one child. -/
def not (child : Node) : Node :=
  group .and true [child]

/-- The search keys of a node in input order. -/
def leaves : Node → List String
  | keys text => [text]
  | group _ _ children => children.flatMap leaves

@[simp] theorem isNegation_not (child : Node) : child.not.isNegation = true := rfl

@[simp] theorem leaves_not (child : Node) : child.not.leaves = child.leaves := by
  simp [not, leaves]

end Node

namespace Group

/-- The group as a node. -/
def node (query : Group) : Node :=
  .group query.conjunction query.negated query.children

/-- A group is determined by its node. -/
theorem node_injective {first second : Group} (same : first.node = second.node) :
    first = second := by
  cases first
  cases second
  simpa [node] using same

instance : DecidableEq Group := fun first second =>
  decidable_of_iff (first.node = second.node) ⟨node_injective, congrArg node⟩

/-- Whether the group has no children. -/
def isEmpty (query : Group) : Bool :=
  query.children.isEmpty

/-- The search keys of the group in input order. -/
def leaves (query : Group) : List String :=
  query.children.flatMap Node.leaves

/-- The keys of a group are those of its node. -/
theorem leaves_node (query : Group) : query.node.leaves = query.leaves := by
  simp [node, leaves, Node.leaves]

/-- A parsed node as a query. A bare key becomes the only child of a group with the given
conjunction, and a group without children is no query. -/
def ofNode? (conjunction : Conjunction) : Option Node → Option Group
  | none => none
  | some (.keys text) => some ⟨conjunction, false, [.keys text]⟩
  | some (.group _ _ []) => none
  | some (.group inner negated children) => some ⟨inner, negated, children⟩

end Group

end SearchKeys
