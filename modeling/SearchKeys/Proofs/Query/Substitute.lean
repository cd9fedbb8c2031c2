/-
# Trees in place of keys

A tree may take the place of a key in another tree, either wherever the key is named so or at one
place only, counted among all keys from left to right. For a name that occurs just once both come
to the same.

## Main definitions

* `Node.substitute`: a tree with other trees in place of its keys, by their names.
* `Node.graft`: a tree with another one in place of a single key, by its number.

## Main results

* `Node.leaves_substitute`: the keys after a substitution.
* `Node.graft_substitute`: renaming a key that occurs once and grafting a tree there is
  substituting the tree for the key.
-/

import SearchKeys.Proofs.Query.Tree
import Mathlib.Data.List.Count
import Mathlib.Logic.Function.Basic

namespace SearchKeys.Node

/-- The tree with another one in place of each key, depending on its name. -/
def substitute (value : String → Node) : Node → Node
  | keys text => value text
  | group conjunction negated children =>
    group conjunction negated (children.map (substitute value))

mutual

/-- The tree with another one in place of the key at an index, if there are so many keys. -/
def graft (node : Node) (index : Nat) (new : Node) : Node :=
  match node with
  | keys text => if index = 0 then new else keys text
  | group conjunction negated children => group conjunction negated (graftAmong children index new)

/-- Trees with another one in place of the key at an index, counted through all of them. -/
def graftAmong (nodes : List Node) (index : Nat) (new : Node) : List Node :=
  match nodes with
  | [] => []
  | node :: rest =>
    if index < node.leaves.length then node.graft index new :: rest
    else node :: graftAmong rest (index - node.leaves.length) new

end

variable {value value' : String → Node} {name text : String} {new : Node}

@[simp] theorem substitute_keys : (keys text).substitute value = value text := by
  rw [substitute]

@[simp] theorem substitute_group (conjunction : Conjunction) (negated : Bool)
    (children : List Node) : (group conjunction negated children).substitute value =
      group conjunction negated (children.map (substitute value)) := by
  rw [substitute]

@[simp] theorem substitute_not (child : Node) :
    child.not.substitute value = (child.substitute value).not := by
  simp [not]

/-- Every key has the keys of what takes its place. -/
theorem leaves_substitute (value : String → Node) (node : Node) :
    (node.substitute value).leaves = node.leaves.flatMap fun key => (value key).leaves := by
  induction node using Node.ind with
  | keys text => simp [leaves]
  | group conjunction negated children ih =>
    rw [substitute_group, leaves, leaves, List.flatMap_map, List.flatMap_assoc]
    exact List.flatMap_congr ih

/-- Only the names of the keys in the tree matter. -/
theorem substitute_congr {node : Node} (same : ∀ key ∈ node.leaves, value key = value' key) :
    node.substitute value = node.substitute value' := by
  induction node using Node.ind with
  | keys text => simpa [leaves] using same
  | group conjunction negated children ih =>
    rw [substitute_group, substitute_group]
    congr 1
    refine List.map_congr_left fun child member => ih child member fun key inside => same key ?_
    rw [leaves]
    exact List.mem_flatMap_of_mem member inside

theorem substitute_self (node : Node) : node.substitute keys = node := by
  induction node using Node.ind with
  | keys text => exact substitute_keys
  | group conjunction negated children ih =>
    rw [substitute_group, List.map_congr_left ih, List.map_id']

/-- What does not occur is not replaced. -/
theorem substitute_update_of_notMem {node : Node} (absent : name ∉ node.leaves) :
    node.substitute (Function.update keys name new) = node := by
  refine (substitute_congr fun key member => ?_).trans (substitute_self node)
  exact Function.update_of_ne (ne_of_mem_of_not_mem member absent) _ _

/-- Renaming a key does not change the number of keys. -/
theorem length_leaves_rename (node : Node) :
    (node.substitute (Function.update keys name (keys text))).leaves.length =
      node.leaves.length := by
  have one (key : String) :
      ((Function.update keys name (keys text) : String → Node) key).leaves.length = 1 := by
    by_cases same : key = name
    · subst same
      simp [leaves]
    · simp [same, leaves]
  simp [leaves_substitute, List.length_flatMap, one]

theorem map_substitute_update_of_notMem {children : List Node}
    (absent : name ∉ children.flatMap leaves) :
    children.map (substitute (Function.update keys name new)) = children := by
  rw [List.mem_flatMap, not_exists] at absent
  have same : ∀ child ∈ children, child.substitute (Function.update keys name new) = child :=
    fun child member => substitute_update_of_notMem fun inside => absent child ⟨member, inside⟩
  rw [List.map_congr_left same, List.map_id']

/-- If a name occurs once, another tree may take its place after it has been changed. -/
theorem graft_substitute {node : Node} (once : node.leaves.count name = 1) :
    (node.substitute (Function.update keys name (keys text))).graft (node.leaves.idxOf name) new =
      node.substitute (Function.update keys name new) := by
  induction node using Node.ind with
  | keys key =>
    obtain rfl : key = name := by simpa [leaves, List.count_singleton] using once
    simp [leaves, graft]
  | group conjunction negated children ih =>
    rw [leaves] at once ⊢
    rw [substitute_group, substitute_group, graft]
    congr 1
    induction children with
    | nil => simp at once
    | cons child rest ihRest =>
      obtain ⟨ihFirst, ihOthers⟩ := List.forall_mem_cons.1 ih
      rw [List.flatMap_cons, List.count_append] at once
      rw [List.flatMap_cons, List.map_cons, List.map_cons, graftAmong, length_leaves_rename]
      by_cases here : name ∈ child.leaves
      · -- it does not occur in the others
        have positive := List.count_pos_iff.2 here
        have absent : name ∉ rest.flatMap leaves := List.count_eq_zero.1 (by omega)
        rw [List.idxOf_append_of_mem here, if_pos (List.idxOf_lt_length_iff.2 here),
          ihFirst (by omega), map_substitute_update_of_notMem absent,
          map_substitute_update_of_notMem absent]
      · rw [List.count_eq_zero.2 here, Nat.zero_add] at once
        rw [List.idxOf_append_of_notMem here, if_neg (by omega), Nat.add_sub_cancel_left,
          ihRest ihOthers once, substitute_update_of_notMem here, substitute_update_of_notMem here]

end SearchKeys.Node
