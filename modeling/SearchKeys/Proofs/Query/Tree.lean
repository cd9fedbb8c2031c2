/-
# The shape of query trees

A tree is well formed if each negation is an `AND` of one child and every other group has
enough children. How deep a tree nests is the number of groups on its longest path.

The parser may write down several groups without a single parenthesis: `a AND b OR c` has a
group as the first child of another one. A tree that one expression without parentheses and
negations stands for is called flat, and a second measure counts it as one level.

## Main definitions

* `Node.WellFormed`: negations have one child, other groups at least a given number.
* `Node.height`, `Node.nesting`: the greatest number of groups on a path from the root, with and
  without the outermost one.
* `Node.isFlat`: keys folded from left to right, with a new operator at every group.
* `Node.brackets`: the height when a flat group counts as one level whatever it contains.

## Main results

* `Node.WellFormed.leaves_ne_nil`: a well-formed tree has keys.
* `Node.height_group_le_iff`, `Node.brackets_group_le_iff`: both measures by the children of a
  group.
-/

import SearchKeys.Query.Node
import Mathlib.Data.List.Basic
import Mathlib.Order.Nat

namespace SearchKeys.Node

/-- What holds of keys, and of a group if it holds of its children, holds of every tree. -/
@[elab_as_elim]
theorem ind {motive : Node → Prop} (keys : ∀ text, motive (keys text))
    (group : ∀ conjunction negated children, (∀ child ∈ children, motive child) →
      motive (group conjunction negated children)) : ∀ node, motive node
  | .keys text => keys text
  | .group conjunction negated children =>
    group conjunction negated children fun child _ => ind keys group child

/-- A list with at least two members starts with two of them. -/
theorem exists_cons_cons {nodes : List Node} (several : 2 ≤ nodes.length) :
    ∃ first second rest, nodes = first :: second :: rest := by
  obtain ⟨first, others, rfl⟩ := List.exists_cons_of_length_pos (Nat.zero_lt_of_lt several)
  obtain ⟨second, rest, rfl⟩ := List.exists_cons_of_length_pos (Nat.lt_of_succ_lt_succ several)
  exact ⟨first, second, rest, rfl⟩

/-- The negations of a tree are joined by `AND` and have one child each, and all its other
groups have at least `least` children. -/
inductive WellFormed (least : Nat) : Node → Prop
  | keys (text : String) : WellFormed least (keys text)
  | not {child : Node} (inner : WellFormed least child) : WellFormed least child.not
  | group {conjunction : Conjunction} {children : List Node} (enough : least ≤ children.length)
      (inner : ∀ child ∈ children, WellFormed least child) :
      WellFormed least (group conjunction false children)

/-- Requiring fewer children admits more trees. -/
theorem WellFormed.mono {least least' : Nat} (fewer : least' ≤ least) {node : Node}
    (wellFormed : node.WellFormed least) : node.WellFormed least' := by
  induction wellFormed with
  | keys text => exact .keys text
  | not _ ih => exact .not ih
  | group enough _ ih => exact .group (Nat.le_trans fewer enough) ih

/-- A tree without empty groups has at least one key. -/
theorem WellFormed.leaves_ne_nil {node : Node} (wellFormed : node.WellFormed 1) :
    node.leaves ≠ [] := by
  induction wellFormed with
  | keys text => simp [leaves]
  | not _ ih => simpa using ih
  | @group _ children enough _ ih =>
    obtain ⟨child, member⟩ := List.exists_mem_of_length_pos enough
    intro noLeaves
    rw [leaves, List.flatMap_eq_nil_iff] at noLeaves
    exact ih child member (noLeaves child member)

section Height

variable {conjunction : Conjunction} {negated : Bool} {children : List Node} {bound : Nat}

/-- The greatest number of groups on a path from the root down. -/
def height : Node → Nat
  | keys _ => 0
  | group _ _ children => (children.map height).foldr max 0 + 1

private theorem foldr_max_le_iff (measure : Node → Nat) :
    (children.map measure).foldr max 0 ≤ bound ↔ ∀ child ∈ children, measure child ≤ bound := by
  induction children with
  | nil => simp
  | cons child children ih =>
    rw [List.map_cons, List.foldr_cons, Nat.max_le, ih, List.forall_mem_cons]

@[simp] theorem height_keys (text : String) : (keys text).height = 0 := by
  rw [height]

/-- A group nests one level deeper than its children. -/
theorem height_group_le_iff (conjunction : Conjunction) (negated : Bool) (children : List Node)
    (bound : Nat) :
    (group conjunction negated children).height ≤ bound + 1 ↔
      ∀ child ∈ children, child.height ≤ bound := by
  rw [height, Nat.add_le_add_iff_right, foldr_max_le_iff]

theorem height_lt_of_mem (conjunction : Conjunction) (negated : Bool) {child : Node}
    (member : child ∈ children) :
    child.height < (group conjunction negated children).height := by
  rw [height, Nat.lt_succ_iff]
  exact (foldr_max_le_iff height).1 le_rfl child member

@[simp] theorem height_not (child : Node) : child.not.height = child.height + 1 := by
  simp [not, height]

/-- The greatest number of groups on a path where the outermost one only counts if it is a
negation, because no other outermost group needs parentheses. -/
def nesting (node : Node) : Nat :=
  if node.isNegation then node.height else node.height - 1

end Height

section Brackets

variable {conjunction : Conjunction} {children : List Node} {bound : Nat}

/-- Whether a node is a key. -/
def isKey : Node → Bool
  | keys _ => true
  | group _ _ _ => false

/-- Whether a node is a group, not negated, with this conjunction. -/
def joins (conjunction : Conjunction) : Node → Bool
  | group conjunction' false _ => conjunction' = conjunction
  | _ => false

/-- Whether a tree is what an expression of keys and operators alone is folded into: all
children but the first are keys, and the first is a key or a flat group with the other
conjunction. -/
def isFlat : Node → Bool
  | group conjunction false (first :: rest) =>
    rest.all isKey && (first.isKey || first.isFlat && !first.joins conjunction)
  | _ => false

/-- The greatest number of groups on a path from the root down, where a flat group counts
as one level with all groups in it. -/
def brackets : Node → Nat
  | keys _ => 0
  | group conjunction negated children =>
    if (group conjunction negated children).isFlat then 1
    else (children.map brackets).foldr max 0 + 1

@[simp] theorem brackets_keys (text : String) : (keys text).brackets = 0 := by
  rw [brackets]

@[simp] theorem brackets_not (child : Node) : child.not.brackets = child.brackets + 1 := by
  simp [not, brackets, isFlat]

theorem brackets_eq_one_of_isFlat {node : Node} (flat : node.isFlat) : node.brackets = 1 := by
  cases node with
  | keys text => simp [isFlat] at flat
  | group => rw [brackets, if_pos flat]

theorem brackets_eq_zero_of_isKey {node : Node} (key : node.isKey) : node.brackets = 0 := by
  cases node with
  | keys text => exact brackets_keys text
  | group => simp [isKey] at key

theorem brackets_group_pos (conjunction : Conjunction) (negated : Bool) (children : List Node) :
    0 < (group conjunction negated children).brackets := by
  rw [brackets]
  split <;> omega

/-- The children of a flat group count as one level at most. -/
theorem brackets_le_one_of_isFlat (flat : (group conjunction false children).isFlat) :
    ∀ child ∈ children, child.brackets ≤ 1 := by
  cases children with
  | nil => simp
  | cons first rest =>
    simp only [isFlat, Bool.and_eq_true, Bool.or_eq_true, List.all_eq_true] at flat
    obtain ⟨restKeys, firstFlat⟩ := flat
    intro child member
    rcases List.mem_cons.1 member with rfl | inRest
    · rcases firstFlat with key | ⟨flat, _⟩
      · simp [brackets_eq_zero_of_isKey key]
      · exact (brackets_eq_one_of_isFlat flat).le
    · simp [brackets_eq_zero_of_isKey (restKeys child inRest)]

/-- With room for more than one level below it, a group has room exactly if its children
have room for one level less. -/
theorem brackets_group_le_iff (conjunction : Conjunction) (children : List Node)
    (room : 1 ≤ bound) :
    (group conjunction false children).brackets ≤ bound + 1 ↔
      ∀ child ∈ children, child.brackets ≤ bound := by
  rw [brackets]
  split
  · next flat =>
    exact ⟨fun _ child member => (brackets_le_one_of_isFlat flat child member).trans room,
      fun _ => by omega⟩
  · rw [Nat.add_le_add_iff_right, foldr_max_le_iff]

/-- With room for more than one level below it, a group fits at a depth exactly if its children
fit one level deeper. -/
theorem brackets_group_fits_iff {depth : Nat} (deeper : depth + 1 < bound) :
    depth + (group conjunction false children).brackets ≤ bound ↔
      ∀ child ∈ children, depth + 1 + child.brackets ≤ bound := by
  obtain ⟨room, rfl⟩ := Nat.exists_eq_add_of_lt deeper
  calc
    _ ↔ (group conjunction false children).brackets ≤ room + 1 + 1 := by omega
    _ ↔ ∀ child ∈ children, child.brackets ≤ room + 1 :=
      brackets_group_le_iff conjunction children (Nat.le_add_left ..)
    _ ↔ _ := by simp only [Nat.add_assoc, Nat.add_le_add_iff_left]

/-- With room for one level only, a group has room exactly if it is flat. -/
theorem brackets_group_le_one_iff (notEmpty : children ≠ []) :
    (group conjunction false children).brackets ≤ 1 ↔
      (group conjunction false children).isFlat := by
  rw [brackets]
  split
  · next flat => simp [flat]
  · next notFlat =>
    rw [show (1 : Nat) = 0 + 1 from rfl, Nat.add_le_add_iff_right, foldr_max_le_iff]
    refine ⟨fun noBrackets => ?_, fun flat => absurd flat notFlat⟩
    -- children without brackets are keys, and a group of keys is flat
    have allKeys : ∀ child ∈ children, child.isKey := by
      intro child member
      cases child with
      | keys text => rfl
      | group => exact absurd (noBrackets _ member) (brackets_group_pos ..).not_ge
    obtain ⟨first, rest, rfl⟩ := List.exists_cons_of_ne_nil notEmpty
    simp only [List.mem_cons, forall_eq_or_imp] at allKeys
    simp [isFlat, allKeys.1, List.all_eq_true.2 allKeys.2]

end Brackets

end SearchKeys.Node
