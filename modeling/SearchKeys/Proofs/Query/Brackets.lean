/-
# Matching parentheses

Which right parenthesis belongs to which left one, by their order alone: a right parenthesis
matches the innermost left one that is open in front of it, if there is any.

## Main definitions

* `opened`: the left parentheses that are open behind some tokens.
* `opening?`: the left parenthesis that a right one matches.
* `Balanced`: every parenthesis is matched by another one.

## Main results

* `opened_concat`: what one more token opens or closes.
* `opened_take_of_suffix`: around an open parenthesis stand those that were open in front of it.
* `mem_opening?_iff`: so do they behind the right parenthesis that matches it.
* `mem_opened_take_iff`: a left parenthesis is open until the right one that matches it.
-/

import SearchKeys.Token
import Mathlib.Data.List.Induction

namespace SearchKeys

/-- What stands for the open parentheses, innermost first, behind one more token; if that opens
another one, `new` stands for it. -/
def Token.bracket {α : Type} (token : Token) (new : α) (inside : List α) : List α :=
  match token with
  | .openParen => new :: inside
  | .closeParen => inside.tail
  | _ => inside

theorem Token.bracket_of_key {α : Type} {token : Token} {text : String}
    (carries : token.key? = some text) (new : α) (inside : List α) :
    token.bracket new inside = inside := by
  match token, carries with
  | .term _, _ => rfl
  | .phrase _, _ => rfl

theorem Token.map_bracket {α β : Type} (f : α → β) (token : Token) (new : α) (inside : List α) :
    (token.bracket new inside).map f = token.bracket (f new) (inside.map f) := by
  cases token with
  | closeParen => exact List.map_tail
  | _ => rfl

/-- The positions of the left parentheses that are open behind the tokens, innermost first. -/
def opened (tokens : List Token) : List Nat :=
  tokens.zipIdx.foldl (fun inside token => token.1.bracket token.2 inside) []

/-- The position of the left parenthesis that the right one at a position matches. -/
def opening? (tokens : List Token) (position : Nat) : Option Nat :=
  if tokens[position]? = some .closeParen then (opened (tokens.take position)).head? else none

/-- Every parenthesis among the tokens is matched by another one. -/
structure Balanced (tokens : List Token) : Prop where
  /-- Every right parenthesis matches a left one. -/
  matched : ∀ position < tokens.length, tokens[position]? = some .closeParen →
    (opening? tokens position).isSome
  /-- No left parenthesis is left open. -/
  closed : opened tokens = []

instance (tokens : List Token) : Decidable (Balanced tokens) :=
  decidable_of_iff (_ ∧ _) ⟨fun ⟨matched, closed⟩ => ⟨matched, closed⟩,
    fun ⟨matched, closed⟩ => ⟨matched, closed⟩⟩

variable {tokens : List Token} {token : Token} {position left : Nat} {outer : List Nat}

theorem opened_concat (tokens : List Token) (token : Token) :
    opened (tokens ++ [token]) = token.bracket tokens.length (opened tokens) := by
  rw [opened, List.zipIdx_append, List.foldl_append, ← opened, Nat.zero_add]
  rfl

/-- What a right parenthesis matches does not depend on what follows it. -/
theorem opening?_append (behind : List Token) (inside : position < tokens.length) :
    opening? (tokens ++ behind) position = opening? tokens position := by
  rw [opening?, opening?, List.getElem?_append_left inside,
    List.take_append_of_le_length (Nat.le_of_lt inside)]

/-- The parentheses around an open one are those that were open in front of it. -/
theorem opened_take_of_suffix (inside : position :: outer <:+ opened tokens) :
    tokens[position]? = some .openParen ∧ opened (tokens.take position) = outer := by
  induction tokens using List.reverseRecOn with
  | nil => simp [opened] at inside
  | append_singleton before token ih =>
    have earlier (inside : position :: outer <:+ opened before) :
        (before ++ [token])[position]? = some .openParen ∧
          opened ((before ++ [token]).take position) = outer := by
      obtain ⟨isOpen, outer_eq⟩ := ih inside
      obtain ⟨bound, _⟩ := List.getElem?_eq_some_iff.1 isOpen
      rw [List.getElem?_append_left bound, List.take_append_of_le_length (Nat.le_of_lt bound)]
      exact ⟨isOpen, outer_eq⟩
    rw [opened_concat] at inside
    unfold Token.bracket at inside
    split at inside
    · -- the last token is the innermost one, or it is the one of an earlier prefix
      rcases List.suffix_cons_iff.1 inside with last | inside
      · obtain ⟨rfl, rfl⟩ := List.cons_eq_cons.1 last
        simp
      · exact earlier inside
    · exact earlier (inside.trans (List.tail_suffix _))
    · exact earlier inside

theorem getElem?_of_mem_opened (member : position ∈ opened tokens) :
    tokens[position]? = some .openParen := by
  obtain ⟨inner, outer, split⟩ := List.append_of_mem member
  exact (opened_take_of_suffix ⟨inner, split.symm⟩).1

theorem lt_of_mem_opened (member : position ∈ opened tokens) : position < tokens.length :=
  (List.getElem?_eq_some_iff.1 (getElem?_of_mem_opened member)).1

theorem mem_opening?_iff : left ∈ opening? tokens position ↔
    tokens[position]? = some .closeParen ∧
      opened (tokens.take position) = left :: opened (tokens.take left) := by
  have around (outer : List Nat) (inside : opened (tokens.take position) = left :: outer) :
      opened (tokens.take left) = outer := by
    have bound : left < (tokens.take position).length :=
      lt_of_mem_opened (by rw [inside]; exact .head _)
    have earlier : left ≤ position :=
      Nat.le_trans (Nat.le_of_lt bound) (List.length_take_le ..)
    have outer_eq := (opened_take_of_suffix ⟨[], inside.symm⟩).2
    rwa [List.take_take, Nat.min_eq_left earlier] at outer_eq
  unfold opening?
  split
  · next here =>
    rw [Option.mem_def, List.head?_eq_some_iff]
    exact ⟨fun ⟨outer, inside⟩ => ⟨here, by rw [around outer inside, inside]⟩,
      fun ⟨_, inside⟩ => ⟨_, inside⟩⟩
  · next other => simp [other]

/-- An open parenthesis stands behind those around it. -/
theorem pairwise_opened (tokens : List Token) : (opened tokens).Pairwise (· > ·) := by
  induction tokens using List.reverseRecOn with
  | nil => exact .nil
  | append_singleton before token ih =>
    rw [opened_concat]
    unfold Token.bracket
    split
    · exact .cons (fun _ => lt_of_mem_opened) ih
    · exact ih.tail
    · exact ih

theorem opened_take_succ (here : tokens[position]? = some token) :
    opened (tokens.take (position + 1)) =
      token.bracket position (opened (tokens.take position)) := by
  obtain ⟨bound, _⟩ := List.getElem?_eq_some_iff.1 here
  rw [List.take_add_one, here, Option.toList_some, opened_concat,
    List.length_take_of_le (Nat.le_of_lt bound)]

theorem lt_of_mem_opening? (matched : left ∈ opening? tokens position) : left < position := by
  have inside : left ∈ opened (tokens.take position) := by
    rw [(mem_opening?_iff.1 matched).2]
    exact .head _
  exact Nat.lt_of_lt_of_le (lt_of_mem_opened inside) (List.length_take_le ..)

/-- A token opens its own parenthesis or closes the one that it matches. -/
theorem mem_opened_take_succ (here : tokens[position]? = some token) :
    left ∈ opened (tokens.take (position + 1)) ↔
      left = position ∧ token = .openParen ∨
        left ∈ opened (tokens.take position) ∧ left ∉ opening? tokens position := by
  rw [opened_take_succ here]
  cases token with
  | openParen => simp [Token.bracket, opening?, here]
  | closeParen =>
    have decreasing := pairwise_opened (tokens.take position)
    cases inside : opened (tokens.take position) with
    | nil => simp [Token.bracket]
    | cons innermost outer =>
      -- no parenthesis is open twice, so that only the innermost one is closed
      rw [inside] at decreasing
      have others (member : left ∈ outer) : left ≠ innermost :=
        Nat.ne_of_lt (List.rel_of_pairwise_cons decreasing member)
      suffices left ∈ outer ↔ (left = innermost ∨ left ∈ outer) ∧ innermost ≠ left by
        simpa [Token.bracket, opening?, here, inside]
      constructor
      · exact fun member => ⟨.inr member, (others member).symm⟩
      · rintro ⟨rfl | member, other⟩
        · exact absurd rfl other
        · exact member
  | _ => simp [Token.bracket, opening?, here]

/-- A left parenthesis is open until the right one that matches it. -/
theorem mem_opened_take_iff (bound : position ≤ tokens.length) :
    left ∈ opened (tokens.take position) ↔ left < position ∧
      tokens[left]? = some .openParen ∧ ∀ close < position, left ∉ opening? tokens close := by
  induction position with
  | zero => simp [opened]
  | succ position ih =>
    have here := List.getElem?_eq_getElem bound
    rw [mem_opened_take_succ here, ih (Nat.le_of_succ_le bound)]
    constructor
    · rintro (⟨rfl, isOpen⟩ | ⟨⟨earlier, isOpen, unmatched⟩, notHere⟩)
      · refine ⟨Nat.lt_succ_self _, isOpen ▸ here, fun close before matched => ?_⟩
        have behind := lt_of_mem_opening? matched
        omega
      · refine ⟨Nat.lt_succ_of_lt earlier, isOpen, fun close before => ?_⟩
        rcases Nat.lt_succ_iff_lt_or_eq.1 before with before | rfl
        · exact unmatched close before
        · exact notHere
    · rintro ⟨earlier, isOpen, unmatched⟩
      rcases Nat.lt_succ_iff_lt_or_eq.1 earlier with earlier | rfl
      · have before := fun close before => unmatched close (Nat.lt_succ_of_lt before)
        exact .inr ⟨⟨earlier, isOpen, before⟩, unmatched position (Nat.lt_succ_self _)⟩
      · exact .inl ⟨rfl, by simpa [here] using isOpen⟩

end SearchKeys
