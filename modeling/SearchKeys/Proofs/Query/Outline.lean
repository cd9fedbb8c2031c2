/-
# Trees told by their outlines

An outline shows nesting by indentation alone, and still no two trees have the same one. The lines
of the text are those of the nodes, because nothing in a line can end it; a line tells its depth,
because no label begins with a space; and a group ends in front of the first line that is not deeper
than its own. Only the conjunction of a negated group is not shown, so it has to be known.

## Main definitions

* `Node.size`: the number of nodes of a tree.
* `Node.NegatesByAnd`: every negated group of the tree is joined by `AND`.
* `Outline.EndsAt`: lines that do not belong to a node of the given depth in front of them.
* `Node.Outlined`: a node is told by any lines that begin with its outline.

## Main results

* `Outline.Line.body_injective`: a line is told by its text.
* `Node.pieces_outlineText`: the lines of the text are those of the outline.
* `Node.outlined`: a node is told by its outline and by where it ends.
* `Group.outlineText_tells`: an outline has one line for each node, and determines the query.
-/

import SearchKeys.Proofs.Query.Tree
import SearchKeys.Proofs.Text.Lines
import SearchKeys.Proofs.Text.Quoted
import SearchKeys.Query.Outline
import Mathlib.Algebra.GroupWithZero.Nat

namespace SearchKeys

namespace Outline

/-! ### Lines of text -/

theorem toList_indentation_zero : (indentation 0).toList = [] := rfl

theorem toList_indentation_succ (depth : Nat) :
    (indentation (depth + 1)).toList = ' ' :: ' ' :: (indentation depth).toList := by
  rw [indentation, indentation, List.replicate_succ, String.toList_join, String.toList_join]
  rfl

namespace Label

/-- The character that a label begins with. -/
def initial : Label → Char
  | negation => 'N'
  | conjunction .and => 'A'
  | conjunction .or => 'O'
  | keys _ => 'K'

theorem toList_text_keys (text : String) :
    (keys text).text.toList =
      'K' :: 'e' :: 'y' :: 's' :: '(' :: ((Text.quoted text).toList ++ [')']) := by
  rw [Label.text, String.toList_append, String.toList_append]
  rfl

theorem head?_text (label : Label) : label.text.toList.head? = some label.initial := by
  rcases label with _ | (_ | _) | text
  · rfl
  · rfl
  · rfl
  · rw [toList_text_keys]; rfl

/-- No label begins with a space. -/
theorem head?_text_ne (label : Label) : label.text.toList.head? ≠ some ' ' := by
  rw [head?_text, Ne, Option.some_inj]
  rcases label with _ | (_ | _) | text <;> simp [initial]

/-- A label is told by its text. -/
theorem text_injective : Function.Injective text := by
  intro first second same
  have initials : first.initial = second.initial :=
    Option.some_inj.1 (by rw [← head?_text, ← head?_text, same])
  rcases first with _ | (_ | _) | key <;> rcases second with _ | (_ | _) | key'
  all_goals try first | rfl | (simp [initial] at initials; done)
  -- two keys are left
  have behind := congrArg String.toList same
  simp only [toList_text_keys, List.cons.injEq, true_and] at behind
  rw [(Text.quoted_append_inj behind).1]

end Label

/-- Behind an indentation, what does not begin with a space tells how deep it stands. -/
theorem indentation_append_inj {depth depth' : Nat} {s t : List Char} (visible : s.head? ≠ some ' ')
    (visible' : t.head? ≠ some ' ')
    (same : (indentation depth).toList ++ s = (indentation depth').toList ++ t) :
    depth = depth' ∧ s = t := by
  -- if one indentation ends before the other, then a space follows where none may
  induction depth generalizing depth' with
  | zero =>
    cases depth' with
    | zero => exact ⟨rfl, same⟩
    | succ depth' =>
      obtain rfl : s = _ := same
      rw [toList_indentation_succ] at visible
      exact absurd rfl visible
  | succ depth ih =>
    cases depth' with
    | zero =>
      obtain rfl : _ = t := same
      rw [toList_indentation_succ] at visible'
      exact absurd rfl visible'
    | succ depth' =>
      rw [toList_indentation_succ, toList_indentation_succ] at same
      obtain ⟨rfl, rest⟩ := ih (List.cons.inj (List.cons.inj same).2).2
      exact ⟨rfl, rest⟩

namespace Line

/-- The text of a line without its end. -/
def body (line : Line) : List Char :=
  (indentation line.depth).toList ++ line.label.text.toList

theorem toList_text (line : Line) : line.text.toList = line.body ++ ['\n'] := by
  rw [text, String.toList_append, String.toList_append, body]
  rfl

theorem body_injective : Function.Injective body := by
  intro first second same
  obtain ⟨depth, label⟩ := indentation_append_inj first.label.head?_text_ne
    second.label.head?_text_ne same
  have label := Label.text_injective (String.toList_injective label)
  cases first
  cases second
  simp_all

theorem feed_notMem_indentation (depth : Nat) : '\n' ∉ (indentation depth).toList := by
  induction depth with
  | zero => simp [toList_indentation_zero]
  | succ depth ih => simp [toList_indentation_succ, ih]

/-- Nothing in a line can end it. -/
theorem feed_notMem_body (line : Line) : '\n' ∉ line.body := by
  have label : '\n' ∉ line.label.text.toList := by
    cases line.label with
    | negation => decide
    | conjunction connective => cases connective <;> decide
    | keys text =>
      have inside : '\n' ∉ (Text.quoted text).toList := fun member =>
        absurd (Text.le_toNat_of_mem_quoted member) (by decide)
      simp [Label.toList_text_keys, inside]
  rw [body, List.mem_append]
  exact not_or.2 ⟨feed_notMem_indentation line.depth, label⟩

end Line

/-! ### Where a node ends -/

/-- Lines that do not belong to a node of the given depth in front of them. -/
def EndsAt (depth : Nat) (lines : List Line) : Prop :=
  ∀ line ∈ lines.head?, line.depth ≤ depth

theorem endsAt_nil (depth : Nat) : EndsAt depth [] := by
  simp [EndsAt]

theorem endsAt_cons {depth : Nat} {line : Line} {lines : List Line} :
    EndsAt depth (line :: lines) ↔ line.depth ≤ depth := by
  simp [EndsAt]

end Outline

namespace Node

open Outline

variable {conjunction : Conjunction} {negated : Bool} {children first second : List Node}
  {depth : Nat} {s t : List Line}

/-- The number of nodes of a tree. -/
def size : Node → Nat
  | keys _ => 1
  | group _ _ children => (children.map size).sum + 1

/-- Every negated group of the tree is joined by `AND`. -/
inductive NegatesByAnd : Node → Prop
  | keys (text : String) : NegatesByAnd (keys text)
  | group {conjunction : Conjunction} {negated : Bool} {children : List Node}
      (plain : negated → conjunction = .and) (inner : ∀ child ∈ children, NegatesByAnd child) :
      NegatesByAnd (group conjunction negated children)

theorem outline_keys (text : String) (depth : Nat) :
    (keys text).outline depth = [⟨depth, .keys text⟩] := by
  rw [outline]

theorem outline_group (conjunction : Conjunction) (negated : Bool) (children : List Node)
    (depth : Nat) :
    (group conjunction negated children).outline depth =
      ⟨depth, groupLabel conjunction negated⟩ :: children.flatMap (outline (depth + 1)) := by
  rw [outline]

/-- There is a line for each node. -/
theorem length_outline (node : Node) (depth : Nat) : (node.outline depth).length = node.size := by
  induction node using ind generalizing depth with
  | keys text => rw [outline_keys, size, List.length_singleton]
  | group conjunction negated children ih =>
    have below : children.map (fun child => (child.outline (depth + 1)).length) =
        children.map size := List.map_congr_left fun child member => ih child member (depth + 1)
    rw [outline_group, List.length_cons, List.length_flatMap, below, size]

/-- The outline of a node begins with its own line. -/
theorem exists_outline_eq_cons (node : Node) (depth : Nat) :
    ∃ label rest, node.outline depth = ⟨depth, label⟩ :: rest := by
  cases node with
  | keys text => exact ⟨_, _, outline_keys text depth⟩
  | group conjunction negated children => exact ⟨_, _, outline_group ..⟩

/-- Behind a node of some depth, other nodes of this depth do not belong to it. -/
theorem endsAt_flatMap_append (ends : EndsAt depth s) (nodes : List Node) :
    EndsAt depth (nodes.flatMap (outline depth) ++ s) := by
  cases nodes with
  | nil => exact ends
  | cons node nodes =>
    obtain ⟨label, rest, begins⟩ := node.exists_outline_eq_cons depth
    rw [List.flatMap_cons, begins]
    exact endsAt_cons.2 (Nat.le_refl depth)

/-- A node is told by any lines that begin with its outline, if what follows does not belong to
it. -/
def Outlined (node : Node) : Prop :=
  ∀ {other : Node} {depth : Nat} {s t : List Line}, other.NegatesByAnd → EndsAt depth s →
    EndsAt depth t → node.outline depth ++ s = other.outline depth ++ t → node = other ∧ s = t

/-- Nodes below a group are told by lines that go on outside of it. -/
theorem flatMap_outline_append_inj (outlined : ∀ node ∈ first, node.Outlined)
    (plain : ∀ node ∈ second, node.NegatesByAnd) (ends : EndsAt depth s) (ends' : EndsAt depth t)
    (same : first.flatMap (outline (depth + 1)) ++ s =
      second.flatMap (outline (depth + 1)) ++ t) : first = second ∧ s = t := by
  -- a line outside of the group is none of a node in it
  have outside (node : Node) (nodes : List Node) {rest rest' : List Line}
      (ends : EndsAt depth rest) :
      rest ≠ (node :: nodes).flatMap (outline (depth + 1)) ++ rest' := by
    rintro rfl
    obtain ⟨label, behind, begins⟩ := node.exists_outline_eq_cons (depth + 1)
    rw [List.flatMap_cons, begins] at ends
    exact absurd (endsAt_cons.1 ends) (Nat.not_succ_le_self depth)
  have deeper {lines : List Line} (ends : EndsAt depth lines) : EndsAt (depth + 1) lines :=
    fun line head => Nat.le_succ_of_le (ends line head)
  induction first generalizing second with
  | nil =>
    cases second with
    | nil => exact ⟨rfl, same⟩
    | cons other second => exact absurd same (outside other second ends)
  | cons node first ih =>
    cases second with
    | nil => exact absurd same.symm (outside node first ends')
    | cons other second =>
      obtain ⟨here, later⟩ := List.forall_mem_cons.1 outlined
      obtain ⟨here', later'⟩ := List.forall_mem_cons.1 plain
      rw [List.flatMap_cons, List.flatMap_cons, List.append_assoc, List.append_assoc] at same
      obtain ⟨rfl, rest⟩ := here here' (endsAt_flatMap_append (deeper ends) first)
        (endsAt_flatMap_append (deeper ends') second) same
      obtain ⟨rfl, sameRest⟩ := ih later later' rest
      exact ⟨rfl, sameRest⟩

theorem groupLabel_ne_keys (text : String) : groupLabel conjunction negated ≠ .keys text := by
  cases negated <;> simp [groupLabel]

/-- A group is told by its label, but for the conjunction of a negated one. -/
theorem groupLabel_inj {conjunction' : Conjunction} {negated' : Bool}
    (plain : negated → conjunction = .and) (plain' : negated' → conjunction' = .and)
    (same : groupLabel conjunction negated = groupLabel conjunction' negated') :
    conjunction = conjunction' ∧ negated = negated' := by
  cases negated <;> cases negated' <;> simp_all [groupLabel]

/-- Every node is told by its outline and by where it ends. -/
theorem outlined {node : Node} (plain : node.NegatesByAnd) : node.Outlined := by
  -- the first line tells what the node is, and the lines behind it are left to its children
  induction plain with
  | keys text =>
    intro other depth s t plain' ends ends' same
    cases plain' with
    | keys text' => simpa [outline_keys] using same
    | group =>
      rw [outline_keys, outline_group] at same
      exact absurd (Line.mk.inj (List.cons.inj same).1).2.symm (groupLabel_ne_keys text)
  | @group conjunction negated children plain _ ih =>
    intro other depth s t plain' ends ends' same
    cases plain' with
    | keys text' =>
      rw [outline_keys, outline_group] at same
      exact absurd (Line.mk.inj (List.cons.inj same).1).2 (groupLabel_ne_keys text')
    | group plain' inner' =>
      simp only [outline_group, List.cons_append, List.cons.injEq, Line.mk.injEq, true_and] at same
      obtain ⟨label, below⟩ := same
      obtain ⟨rfl, rfl⟩ := groupLabel_inj plain plain' label
      obtain ⟨rfl, rest⟩ := flatMap_outline_append_inj ih inner' ends ends' below
      exact ⟨rfl, rest⟩

/-- The text of an outline is that of its lines. -/
theorem toList_outlineText (node : Node) :
    node.outlineText.toList = ((node.outline 0).map Line.body).flatMap (· ++ ['\n']) := by
  rw [outlineText, String.toList_join, List.flatMap_map, List.flatMap_map]
  exact List.flatMap_congr fun line _ => line.toList_text

theorem feed_notMem_bodies (node : Node) :
    ∀ line ∈ (node.outline 0).map Line.body, '\n' ∉ line :=
  List.forall_mem_map.2 fun line _ => line.feed_notMem_body

/-- The lines of the text are those of the outline. -/
theorem pieces_outlineText (node : Node) :
    Text.pieces node.outlineText.toList =
      (node.outline 0).map fun line => line.body ++ ['\n'] := by
  rw [toList_outlineText, Text.pieces_flatMap node.feed_notMem_bodies, List.map_map]
  rfl

/-- Trees whose outlines have the same text are the same. -/
theorem eq_of_outlineText_eq {node other : Node} (plain : node.NegatesByAnd)
    (plain' : other.NegatesByAnd) (same : node.outlineText = other.outlineText) : node = other := by
  have pieces : (node.outline 0).map (fun line => line.body ++ ['\n']) =
      (other.outline 0).map fun line => line.body ++ ['\n'] := by
    rw [← pieces_outlineText, ← pieces_outlineText, same]
  have line_injective : Function.Injective fun line : Line => line.body ++ ['\n'] :=
    fun first second same => Line.body_injective (List.append_cancel_right same)
  have outlines : node.outline 0 ++ [] = other.outline 0 ++ [] :=
    congrArg (· ++ []) (List.map_injective_iff.2 line_injective pieces)
  exact (outlined plain plain' (endsAt_nil 0) (endsAt_nil 0) outlines).1

end Node

/-- The outline of a query has exactly one line for each of its nodes, and each of them is ended. If
all that it negates is joined by `AND`, then no other such query has the same outline, whatever its
shape is and whatever its keys contain. -/
theorem Group.outlineText_tells {first second : Group} (plain : first.node.NegatesByAnd)
    (plain' : second.node.NegatesByAnd) :
    (∃ lines : List (List Char), first.outlineText.toList = lines.flatMap (· ++ ['\n']) ∧
      (∀ line ∈ lines, '\n' ∉ line) ∧ lines.length = first.node.size) ∧
    (first.outlineText = second.outlineText → first = second) := by
  constructor
  · -- the labels hold no line feed, so the lines are as many as the outline has
    refine ⟨_, first.node.toList_outlineText, first.node.feed_notMem_bodies, ?_⟩
    rw [List.length_map, Node.length_outline]
  · intro same
    exact Group.node_injective (Node.eq_of_outlineText_eq plain plain' same)

/-- A key that looks like two lines is one line, and it is told from two keys. -/
theorem Group.outlineText_tells_lookalike :
    let first : Group := ⟨.or, false, [.keys "a\")\n  Keys(\"b", .group .and true []]⟩
    let second : Group := ⟨.or, false, [.keys "a", .keys "b", .group .and true []]⟩
    (first.node.NegatesByAnd ∧ second.node.NegatesByAnd) ∧
      (∃ lines : List (List Char), first.outlineText.toList = lines.flatMap (· ++ ['\n']) ∧
        (∀ line ∈ lines, '\n' ∉ line) ∧ lines.length = 3) ∧
      first.outlineText ≠ second.outlineText := by
  intro first second
  have empty : (Node.group .and true []).NegatesByAnd := .group (fun _ => rfl) (by simp)
  have plain : first.node.NegatesByAnd :=
    .group nofun (List.forall_mem_cons.2 ⟨.keys _, List.forall_mem_singleton.2 empty⟩)
  have plain' : second.node.NegatesByAnd :=
    .group nofun (List.forall_mem_cons.2 ⟨.keys _,
      List.forall_mem_cons.2 ⟨.keys _, List.forall_mem_singleton.2 empty⟩⟩)
  obtain ⟨⟨lines, whole, noFeed, length⟩, tells⟩ := Group.outlineText_tells plain plain'
  have size : first.node.size = 3 := by simp [first, Group.node, Node.size]
  exact ⟨⟨plain, plain'⟩, ⟨lines, whole, noFeed, length.trans size⟩,
    fun same => absurd (tells same) (by simp [first, second])⟩

end SearchKeys
