/-
# Outlines in colour

An outline in colour differs from the plain one by its escape sequences only. It is written by a
recursion of its own, so the two are compared node by node. Escape sequences are taken away
from the text as a terminal finds them, without knowing what they were written around: that no text
of a key is lost with them is due to its quotes, which leave no escape character in it.

## Main definitions

* `Terminal.unstyled`: a text without its escape sequences.
* `Terminal.Shows`: what is left of a text in front of any other.

## Main results

* `Terminal.shows_paint`: styles around a text are taken away again.
* `Terminal.shows_nodeOutline`: an outline in colour shows the plain one.
* `Terminal.unstyled_outline`: the same for queries.
-/

import SearchKeys.Proofs.Query.Outline
import SearchKeys.Terminal.Listing

namespace SearchKeys.Terminal

/-- What is left of a text without its escape sequences, if it begins in one or not. -/
def unstyledFrom : Bool → List Char → List Char
  | _, [] => []
  | true, c :: rest => unstyledFrom (c != 'm') rest
  | false, c :: rest =>
    if c = '\x1b' then unstyledFrom true rest else c :: unstyledFrom false rest

/-- A text without its escape sequences, each of which goes from an escape character up to the next
`m`. -/
def unstyled (text : List Char) : List Char :=
  unstyledFrom false text

/-- What is left of a text without its escape sequences, where all of them end in it. -/
def Shows (text left : List Char) : Prop :=
  ∀ rest, unstyled (text ++ rest) = left ++ unstyled rest

section Shows

variable {text text' left left' : List Char}

theorem Shows.nil : Shows [] [] := fun _ => rfl

theorem Shows.append (shows : Shows text left) (shows' : Shows text' left') :
    Shows (text ++ text') (left ++ left') := by
  intro rest
  rw [List.append_assoc, shows, shows', List.append_assoc]

theorem Shows.flatMap {α : Type} {items : List α} {coloured plain : α → List Char}
    (shows : ∀ item ∈ items, Shows (coloured item) (plain item)) :
    Shows (items.flatMap coloured) (items.flatMap plain) := by
  induction items with
  | nil => exact Shows.nil
  | cons item items ih =>
    obtain ⟨here, later⟩ := List.forall_mem_cons.1 shows
    rw [List.flatMap_cons, List.flatMap_cons]
    exact here.append (ih later)

/-- Nothing is taken away where there is no escape character. -/
theorem shows_self (noEscape : '\x1b' ∉ text) : Shows text text := by
  intro rest
  induction text with
  | nil => rfl
  | cons c text ih =>
    rw [List.mem_cons, not_or] at noEscape
    obtain ⟨here, later⟩ := noEscape
    rw [List.cons_append, List.cons_append, unstyled, unstyledFrom, if_neg (Ne.symm here)]
    exact congrArg (c :: ·) (ih later)

end Shows

/-! ### Styles -/

theorem shows_code (style : Style) : Shows style.code.toList [] := by
  cases style <;> exact fun _ => rfl

theorem shows_reset : Shows reset.toList [] := fun _ => rfl

/-- Styles around a text are taken away again. -/
theorem shows_paint (styles : List Style) {text : String} (shows : Shows text.toList text.toList) :
    Shows (paint styles text).toList text.toList := by
  -- nothing is left of the codes in front, however many there are
  have codes : Shows (String.join (styles.map Style.code)).toList [] := by
    rw [String.toList_join, List.flatMap_map]
    induction styles with
    | nil => exact Shows.nil
    | cons style styles ih => exact (shows_code style).append ih
  rw [paint, String.toList_append, String.toList_append]
  simpa using (codes.append shows).append shows_reset

theorem shows_groupHeading (conjunction : Conjunction) (negated : Bool) :
    Shows (groupHeading conjunction negated).toList
      (Node.groupLabel conjunction negated).text.toList := by
  cases negated with
  | true => exact shows_paint _ (shows_self (by decide))
  | false => exact shows_paint _ (shows_self (by cases conjunction <;> decide))

/-- The text of a key has no escape character in it. -/
theorem shows_quoted (text : String) : Shows (Text.quoted text).toList (Text.quoted text).toList :=
  shows_self fun member => absurd (Text.le_toNat_of_mem_quoted member) (by decide)

theorem shows_indentation (depth : Nat) :
    Shows (Outline.indentation depth).toList (Outline.indentation depth).toList := by
  induction depth with
  | zero => exact Shows.nil
  | succ depth ih =>
    rw [Outline.toList_indentation_succ]
    exact (shows_self (by decide) : Shows [' ', ' '] [' ', ' ']).append ih

/-! ### Nodes -/

/-- An outline in colour shows the plain one. -/
theorem shows_nodeOutline (node : Node) (depth : Nat) :
    Shows (nodeOutline depth node).toList
      ((node.outline depth).flatMap fun line => line.text.toList) := by
  have feed : Shows "\n".toList "\n".toList := shows_self (by decide)
  -- each line is compared piece by piece, in the order in which both are written
  induction node using Node.ind generalizing depth with
  | keys text =>
    have opening : Shows "Keys(".toList "Keys(".toList := shows_self (by decide)
    have closing : Shows ")".toList ")".toList := shows_self (by decide)
    have key := shows_paint [.green] (shows_quoted text)
    rw [nodeOutline, Node.outline_keys, List.flatMap_singleton, Outline.Line.text,
      Outline.Label.text]
    simp only [String.toList_append]
    simpa only [List.append_assoc] using
      ((((shows_indentation depth).append opening).append key).append closing).append feed
  | group conjunction negated children ih =>
    have below : Shows (String.join (children.map (nodeOutline (depth + 1)))).toList
        (children.flatMap fun child =>
          (child.outline (depth + 1)).flatMap fun line => line.text.toList) := by
      rw [String.toList_join, List.flatMap_map]
      exact Shows.flatMap fun child member => ih child member (depth + 1)
    rw [nodeOutline, Node.outline_group, List.flatMap_cons, Outline.Line.text, List.flatMap_assoc]
    simp only [String.toList_append]
    exact (((shows_indentation depth).append (shows_groupHeading conjunction negated)).append
      feed).append below

/-- Without its escape sequences, the outline of a query in colour is the plain one. -/
theorem unstyled_outline (query : Group) :
    unstyled (outline true query).toList = query.outlineText.toList := by
  have shown := shows_nodeOutline query.node 0 []
  rw [List.append_nil] at shown
  rw [outline, if_pos rfl, shown, Group.outlineText, Node.outlineText, String.toList_join,
    List.flatMap_map]
  exact List.append_nil _

end SearchKeys.Terminal
