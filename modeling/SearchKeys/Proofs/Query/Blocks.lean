/-
# An expression cut at its operators

The operands of an expression fall into blocks: a new one begins at every operator. What an
expression means is told block by block. The operands of a block make a row, whose first member is
everything on the left joined with the first operand of the block. Joining makes a new group,
except directly behind the same operator with a single operand: there it extends the group that
this operator made.

## Main definitions

* `Fold.attachAll`: the fold after some operands.
* `Block`, `cut`: the operands from one operator to the next, and an expression cut into them.
* `row`, `Block.join`: the operands of a block as one node, and a block with what is on its left.
* `result`: the node of an expression that is cut into blocks.

## Main results

* `Fold.attachAll_block`: what one block does to a fold.
* `Fold.attachAll_blocks`: what all blocks do.
* `Fold.finish_attachAll`: folding an expression gives the node of its blocks.
-/

import SearchKeys.Proofs.Query.Step
import SearchKeys.Proofs.Query.Tree

namespace SearchKeys

variable {default conjunction : Conjunction} {fold : Fold} {left node : Node}

/-- An operand with the operator in front of it, or with none. -/
abbrev Link := Option Conjunction × Node

/-- The fold after some more operands. -/
def Fold.attachAll (default : Conjunction) (links : List Link) (fold : Fold) : Fold :=
  links.foldl (fun fold link => fold.attach default link.1 link.2) fold

theorem Fold.attachAll_append (first second : List Link) :
    fold.attachAll default (first ++ second) =
      (fold.attachAll default first).attachAll default second :=
  List.foldl_append

/-! ### Blocks -/

/-- The operands from an operator up to the next one. -/
structure Block where
  /-- What the operator in front stands for. -/
  conjunction : Conjunction
  /-- The operand behind the operator. -/
  first : Node
  /-- The operands behind it with no operator in between. -/
  rest : List Node

/-- The operands of a block with what stands in front of them. -/
def Block.links (block : Block) : List Link :=
  (some block.conjunction, block.first) :: block.rest.map (Prod.mk none)

/-- The operands up to the first operator, and the blocks from there on. -/
def cut : List Link → List Node × List Block
  | [] => ([], [])
  | (none, node) :: links => (node :: (cut links).1, (cut links).2)
  | (some conjunction, node) :: links => ([], ⟨conjunction, node, (cut links).1⟩ :: (cut links).2)

/-- Nothing is lost by cutting. -/
theorem links_cut (links : List Link) :
    (cut links).1.map (Prod.mk none) ++ (cut links).2.flatMap Block.links = links := by
  fun_induction cut links with
  | case1 => rfl
  | case2 node links ih => simpa using ih
  | case3 conjunction node links ih => simpa [Block.links] using ih

/-! ### The node of the blocks -/

/-- Operands with no operator between them as one node. A single one stands for itself, and
several make a group, which must match as a whole if one of them is a negation. -/
def row (default : Conjunction) (first : Node) : List Node → Node
  | [] => first
  | second :: rest =>
    let members := first :: second :: rest
    .group (if members.any Node.isNegation then .and else default) false members

/-- Whether a block goes on with the group of the block in front of it, given the blocks in front
of it, latest first: that block has the same operator and a single operand. -/
def Block.extends (block : Block) : List Block → Bool
  | [] => false
  | previous :: _ => previous.conjunction = block.conjunction && previous.rest.isEmpty

/-- The first operand of a block joined with everything on its left. -/
def Block.join (block : Block) (isExtension : Bool) (left : Node) : Node :=
  match isExtension, left with
  | true, .group conjunction negated children =>
    .group conjunction negated (children ++ [block.first])
  | _, left => .group block.conjunction false [left, block.first]

/-- The node of an expression by the operands in front of its first operator and its blocks,
latest first. -/
def result (default : Conjunction) (first : Node) (rest : List Node) : List Block → Node
  | [] => row default first rest
  | block :: earlier =>
    row default (block.join (block.extends earlier) (result default first rest earlier)) block.rest

/-! ### Folding a block -/

namespace Fold

/-- The operator whose group can be extended. -/
def open? : Fold → Option Conjunction
  | run _ => none
  | chain conjunction _ => some conjunction

theorem joinRun_reverse (default : Conjunction) (first : Node) (rest : List Node) :
    joinRun default (first :: rest).reverse = some (row default first rest) := by
  cases rest with
  | nil => rfl
  | cons second rest =>
    have several : 2 ≤ (first :: second :: rest).reverse.length := by simp
    obtain ⟨last, before, members, reversed⟩ := Node.exists_cons_cons several
    have joined : joinRun default (last :: before :: members) =
        some (.group (if (last :: before :: members).any Node.isNegation then .and else default)
          false (last :: before :: members).reverse) :=
      rfl
    rw [reversed, joined, ← reversed, List.any_reverse, List.reverse_reverse]
    rfl

/-- Operands without operators lengthen a run. -/
theorem attachAll_run (default : Conjunction) (rest members : List Node) :
    (run members).attachAll default (rest.map (Prod.mk none)) = run (rest.reverse ++ members) := by
  induction rest generalizing members with
  | nil => rfl
  | cons node rest ih =>
    rw [List.reverse_cons, List.append_assoc]
    exact ih (node :: members)

/-- A group that could be extended becomes the first member of a run. -/
theorem attachAll_chain (default conjunction : Conjunction) (operands rest : List Node) :
    let fold := (chain conjunction operands).attachAll default (rest.map (Prod.mk none))
    fold.finish default =
        some (row default (.group conjunction false operands.reverse) rest) ∧
      fold.open? = if rest.isEmpty then some conjunction else none := by
  cases rest with
  | nil => exact ⟨rfl, rfl⟩
  | cons node rest =>
    have begun : (chain conjunction operands).attachAll default
          ((node :: rest).map (Prod.mk none)) =
        (run [node, .group conjunction false operands.reverse]).attachAll default
          (rest.map (Prod.mk none)) :=
      rfl
    have members : rest.reverse ++ [node, .group conjunction false operands.reverse] =
        (.group conjunction false operands.reverse :: node :: rest).reverse := by
      simp
    rw [begun, attachAll_run, members]
    exact ⟨joinRun_reverse .., rfl⟩

/-- An operand behind an operator is joined with everything on its left. -/
theorem combine_eq_chain (block : Block) (finished : fold.finish default = some left) :
    ∃ operands, fold.combine default block.conjunction block.first =
        chain block.conjunction operands ∧
      .group block.conjunction false operands.reverse =
        block.join (fold.open? = some block.conjunction) left := by
  cases fold with
  | run members =>
    have joined : joinRun default members = some left := finished
    exact ⟨[block.first, left], by rw [combine, joined], rfl⟩
  | chain previous operands =>
    obtain rfl : .group previous false operands.reverse = left := by
      simpa [finish] using finished
    by_cases same : previous = block.conjunction
    · exact ⟨block.first :: operands, by rw [combine, if_pos same],
        by simp [open?, same, Block.join]⟩
    · exact ⟨[block.first, .group previous false operands.reverse],
        by rw [combine, if_neg same], by simp [open?, same, Block.join]⟩

/-- A block makes a row of what is on its left and of its own operands. -/
theorem attachAll_block (block : Block) (finished : fold.finish default = some left) :
    (fold.attachAll default block.links).finish default =
        some (row default (block.join (fold.open? = some block.conjunction) left) block.rest) ∧
      (fold.attachAll default block.links).open? =
        if block.rest.isEmpty then some block.conjunction else none := by
  obtain ⟨operands, combined, joined⟩ := combine_eq_chain block finished
  have begun : fold.attachAll default block.links =
      (chain block.conjunction operands).attachAll default (block.rest.map (Prod.mk none)) := by
    rw [← combined]
    rfl
  rw [begun, ← joined]
  exact attachAll_chain ..

/-- The blocks of an expression, latest first, are folded into their node. -/
theorem attachAll_blocks (default : Conjunction) (first : Node) (rest : List Node)
    (blocks : List Block) :
    let fold := (run (first :: rest).reverse).attachAll default
      (blocks.reverse.flatMap Block.links)
    fold.finish default = some (result default first rest blocks) ∧
      ∀ block : Block, block.extends blocks = decide (fold.open? = some block.conjunction) := by
  induction blocks with
  | nil => exact ⟨joinRun_reverse .., fun _ => rfl⟩
  | cons block earlier ih =>
    obtain ⟨finished, isExtension⟩ := ih
    rw [List.reverse_cons, List.flatMap_append, attachAll_append, List.flatMap_singleton]
    obtain ⟨finished', open_eq⟩ := attachAll_block block finished
    rw [result, isExtension]
    refine ⟨finished', fun next => ?_⟩
    rw [open_eq, Block.extends]
    cases block.rest <;> simp

/-- An expression is cut before each operator. Folding it from the left makes, block by block, a
row of the operands, whose first one is joined with everything on its left. -/
theorem finish_attachAll (default : Conjunction) (first : Node) (links : List Link) :
    (none, first) :: links =
        (first :: (cut links).1).map (Prod.mk none) ++ (cut links).2.flatMap Block.links ∧
      (empty.attachAll default ((none, first) :: links)).finish default =
        some (result default first (cut links).1 (cut links).2.reverse) := by
  have whole : (none, first) :: links =
      (first :: (cut links).1).map (Prod.mk none) ++ (cut links).2.flatMap Block.links := by
    rw [List.map_cons, List.cons_append, links_cut]
  refine ⟨whole, ?_⟩
  have head : empty.attachAll default ((first :: (cut links).1).map (Prod.mk none)) =
      run (first :: (cut links).1).reverse := by
    rw [empty, attachAll_run, List.append_nil]
  obtain ⟨finished, _⟩ := attachAll_blocks default first (cut links).1 (cut links).2.reverse
  rw [whole, attachAll_append, head]
  rwa [List.reverse_reverse] at finished

-- the last operator is the same as the one before it, but it does not follow directly
example : (empty.attachAll .and [(none, .keys "a"), (some .or, .keys "b"), (some .or, .keys "c"),
      (none, .keys "d"), (some .or, .keys "e")]).finish .and =
    some (.group .or false [.group .and false [.group .or false [.keys "a", .keys "b", .keys "c"],
      .keys "d"], .keys "e"]) :=
  rfl

end Fold

end SearchKeys
