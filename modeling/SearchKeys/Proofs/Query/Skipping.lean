/-
# Skipped parentheses

For each left parenthesis that it skips, the parser swallows a right one. It only counts them:
the next right one is taken, whichever it matches. It is the right one as long as no
parentheses are kept and closed behind a skipped one that is still open. Then the count is
that of the skipped parentheses among the open ones, and the open groups are the others.

## Main definitions

* `Parser.IsSkipped`: the token at a position is skipped for its depth.
* `Parser.Swallowed`: the right parenthesis at a position is skipped with a left one.
* `Parser.KeepsApart`: no parentheses are kept and closed inside skipped ones.
* `Parser.Tracks`: the parser's count and its frames match the open parentheses.

## Main results

* `Parser.Effect.tracks`: the match is kept by each token that acts on its own parenthesis.
* `Parser.keepsApart_iff`: when exactly all right parentheses act on their own ones.
-/

import SearchKeys.Proofs.Query.Brackets
import SearchKeys.Proofs.Query.Record

namespace SearchKeys.Parser

variable {default : Conjunction} {tokens : List Token} {token : Token} {position left close : Nat}

/-- The state in front of the token at a position. -/
def stateAt (default : Conjunction) (tokens : List Token) (position : Nat) : State :=
  run default .initial (tokens.take position)

/-- The parser skips the token at the position, because it would nest too deep. -/
def IsSkipped (default : Conjunction) (tokens : List Token) (position : Nat) : Prop :=
  ∃ token ∈ tokens[position]?, (stateAt default tokens position).Skips token

instance : DecidablePred (IsSkipped default tokens) := fun _ =>
  inferInstanceAs (Decidable (∃ token ∈ _, _))

/-- The parser takes the right parenthesis at the position for that of a skipped left one. -/
def Swallowed (default : Conjunction) (tokens : List Token) (position : Nat) : Prop :=
  tokens[position]? = some .closeParen ∧ 0 < (stateAt default tokens position).skipped

instance : DecidablePred (Swallowed default tokens) := fun _ =>
  inferInstanceAs (Decidable (_ ∧ _))

/-- The right parenthesis at the position matches a left one that is skipped. -/
def ClosesSkipped (default : Conjunction) (tokens : List Token) (position : Nat) : Prop :=
  ∃ left ∈ opening? tokens position, IsSkipped default tokens left

instance : DecidablePred (ClosesSkipped default tokens) := fun _ =>
  inferInstanceAs (Decidable (∃ left ∈ _, _))

/-- Parentheses that match and are kept do not stand behind a skipped one that is still open. -/
def KeepsApart (default : Conjunction) (tokens : List Token) : Prop :=
  ∀ close < tokens.length, ∀ left ∈ opening? tokens close, ¬IsSkipped default tokens left →
    ∀ around ∈ opened (tokens.take left), ¬IsSkipped default tokens around

instance : Decidable (KeepsApart default tokens) :=
  inferInstanceAs (Decidable (∀ close < _, ∀ left ∈ _, _))

theorem isSkipped_iff (default : Conjunction) (here : tokens[position]? = some token) :
    IsSkipped default tokens position ↔ (stateAt default tokens position).Skips token := by
  simp [IsSkipped, here]

theorem stateAt_succ (default : Conjunction) (here : tokens[position]? = some token) :
    stateAt default tokens (position + 1) =
      step default (stateAt default tokens position) token := by
  rw [stateAt, List.take_add_one, here, Option.toList_some, run_concat, ← stateAt]

/-- What the parser has counted and opened in front of a position matches the parentheses that
are open there. -/
structure Tracks (default : Conjunction) (tokens : List Token) (position : Nat) : Prop where
  /-- The parser lacks a right parenthesis for each skipped one. -/
  skipped_eq : (stateAt default tokens position).skipped =
    (opened (tokens.take position)).countP (IsSkipped default tokens)
  /-- The frames around the innermost one are those in which a kept one was opened. -/
  outer_eq : (stateAt default tokens position).outer =
    ((opened (tokens.take position)).filter (¬IsSkipped default tokens ·)).map
      fun left => (stateAt default tokens left).frame

/-- If the parser lacks no right parenthesis, the open frames are the open parentheses. -/
theorem Tracks.outer_eq_of_skipped_eq_zero (tracks : Tracks default tokens position)
    (noneSkipped : (stateAt default tokens position).skipped = 0) :
    (∀ left ∈ opened (tokens.take position), ¬IsSkipped default tokens left) ∧
      (stateAt default tokens position).outer =
        (opened (tokens.take position)).map fun left => (stateAt default tokens left).frame := by
  have kept : ∀ left ∈ opened (tokens.take position), ¬IsSkipped default tokens left := by
    simpa [tracks.skipped_eq] using noneSkipped
  have all : (opened (tokens.take position)).filter (¬IsSkipped default tokens ·) =
      opened (tokens.take position) := by
    simpa using kept
  exact ⟨kept, by rw [tracks.outer_eq, all]⟩

/-- A right parenthesis that is not swallowed leaves the innermost frame, if there is any. -/
theorem Tracks.tail (tracks : Tracks default tokens position)
    (noneSkipped : (stateAt default tokens position).skipped = 0) :
    (opened (tokens.take position)).tail.countP (IsSkipped default tokens) = 0 ∧
      ((opened (tokens.take position)).tail.filter (¬IsSkipped default tokens ·)).map
        (fun left => (stateAt default tokens left).frame) =
          (stateAt default tokens position).outer.tail := by
  obtain ⟨kept, outer_eq⟩ := tracks.outer_eq_of_skipped_eq_zero noneSkipped
  have keptTail : ∀ left ∈ (opened (tokens.take position)).tail, ¬IsSkipped default tokens left :=
    fun left member => kept left (List.mem_of_mem_tail member)
  have all : (opened (tokens.take position)).tail.filter (¬IsSkipped default tokens ·) =
      (opened (tokens.take position)).tail := by
    simpa using keptTail
  rw [all, outer_eq, List.map_tail]
  exact ⟨by simpa using keptTail, rfl⟩

/-- What a step does to the count and to the frames is what its token does to the open
parentheses, unless it swallows the right parenthesis of a kept one. -/
theorem Effect.tracks {frame : Frame} {outer : List Frame} {skipped : Nat}
    (effect : Effect default (stateAt default tokens position) token frame outer skipped)
    (here : tokens[position]? = some token) (tracks : Tracks default tokens position)
    (own : Swallowed default tokens position → ClosesSkipped default tokens position) :
    skipped = (opened (tokens.take (position + 1))).countP (IsSkipped default tokens) ∧
      outer = ((opened (tokens.take (position + 1))).filter (¬IsSkipped default tokens ·)).map
        fun left => (stateAt default tokens left).frame := by
  have skipped_eq := tracks.skipped_eq
  have outer_eq := tracks.outer_eq
  have skips := isSkipped_iff default here
  rw [opened_take_succ here]
  cases effect with
  | key carries =>
    rw [Token.bracket_of_key carries]
    exact ⟨skipped_eq, outer_eq⟩
  | skipNot limit => exact ⟨skipped_eq, outer_eq⟩
  | negate room => exact ⟨skipped_eq, outer_eq⟩
  | join conjunction => exact ⟨skipped_eq, outer_eq⟩
  | skipOpen limit =>
    have skipped : IsSkipped default tokens position := skips.2 ⟨limit, .inl rfl⟩
    simp [Token.bracket, skipped, skipped_eq, outer_eq]
  | openGroup room =>
    have kept : ¬IsSkipped default tokens position := fun skipped => room (skips.1 skipped).1
    simp [Token.bracket, kept, skipped_eq, outer_eq]
  | swallow waiting =>
    obtain ⟨left, matched, skipped⟩ := own ⟨here, waiting⟩
    obtain ⟨_, open_eq⟩ := mem_opening?_iff.1 matched
    simp [Token.bracket, open_eq, skipped, skipped_eq, outer_eq]
  | stray noneSkipped outermost =>
    obtain ⟨count_eq, frames_eq⟩ := tracks.tail noneSkipped
    rw [Token.bracket, count_eq, frames_eq, outermost]
    exact ⟨noneSkipped, rfl⟩
  | closeGroup noneSkipped inside =>
    obtain ⟨count_eq, frames_eq⟩ := tracks.tail noneSkipped
    rw [Token.bracket, count_eq, frames_eq, inside]
    exact ⟨noneSkipped, rfl⟩

theorem Tracks.step (tracks : Tracks default tokens position)
    (own : Swallowed default tokens position → ClosesSkipped default tokens position)
    (here : tokens[position]? = some token) : Tracks default tokens (position + 1) := by
  obtain ⟨skipped_eq, outer_eq⟩ := (step_effect default _ token).tracks here tracks own
  rw [← stateAt_succ default here] at skipped_eq outer_eq
  exact ⟨skipped_eq, outer_eq⟩

/-- The right parenthesis of a skipped one is swallowed. -/
theorem Tracks.swallowed_of_closesSkipped (tracks : Tracks default tokens position)
    (closes : ClosesSkipped default tokens position) : Swallowed default tokens position := by
  obtain ⟨left, matched, skipped⟩ := closes
  obtain ⟨here, open_eq⟩ := mem_opening?_iff.1 matched
  refine ⟨here, ?_⟩
  rw [tracks.skipped_eq, open_eq, List.countP_cons_of_pos (by simpa using skipped)]
  exact Nat.succ_pos _

/-- A right parenthesis can only be swallowed in place of another one if skipped parentheses stand
around its own. -/
theorem Tracks.closesSkipped_of_swallowed (tracks : Tracks default tokens position)
    (apart : KeepsApart default tokens) (swallowed : Swallowed default tokens position) :
    ClosesSkipped default tokens position := by
  obtain ⟨here, waiting⟩ := swallowed
  obtain ⟨bound, _⟩ := List.getElem?_eq_some_iff.1 here
  rw [tracks.skipped_eq] at waiting
  obtain ⟨around, inside, skipped⟩ := List.countP_pos_iff.1 waiting
  have matched : ∃ left, left ∈ opening? tokens position := by
    rw [opening?, if_pos here]
    exact ⟨_, List.head?_eq_some_head (List.ne_nil_of_mem inside)⟩
  obtain ⟨left, matched⟩ := matched
  by_contra other
  -- otherwise its own one is kept, and the skipped one that is open stands around that
  have kept : ¬IsSkipped default tokens left := fun skipped => other ⟨left, matched, skipped⟩
  rw [(mem_opening?_iff.1 matched).2] at inside
  rcases List.mem_cons.1 inside with rfl | inOuter
  · exact kept (by simpa using skipped)
  · exact apart position bound left matched kept around inOuter (by simpa using skipped)

/-- The match is kept as long as the right parentheses act on their own ones. -/
theorem tracks_of_own (own : ∀ position, Tracks default tokens position →
      Swallowed default tokens position → ClosesSkipped default tokens position)
    (bound : position ≤ tokens.length) : Tracks default tokens position := by
  induction position with
  | zero => exact ⟨rfl, rfl⟩
  | succ position ih =>
    have tracks := ih (Nat.le_of_succ_le bound)
    exact tracks.step (own position tracks) (List.getElem?_eq_getElem bound)

theorem KeepsApart.tracks (apart : KeepsApart default tokens) (bound : position ≤ tokens.length) :
    Tracks default tokens position :=
  tracks_of_own (fun _ tracks => tracks.closesSkipped_of_swallowed apart) bound

/-- All right parentheses act on their own ones exactly if no others are kept and closed behind a
skipped one that is still open. -/
theorem keepsApart_iff : KeepsApart default tokens ↔ ∀ position,
    Swallowed default tokens position ↔ ClosesSkipped default tokens position := by
  constructor
  · intro apart position
    constructor
    · intro swallowed
      obtain ⟨bound, _⟩ := List.getElem?_eq_some_iff.1 swallowed.1
      exact (apart.tracks (Nat.le_of_lt bound)).closesSkipped_of_swallowed apart swallowed
    · intro closes
      obtain ⟨left, matched, _⟩ := id closes
      obtain ⟨bound, _⟩ := List.getElem?_eq_some_iff.1 (mem_opening?_iff.1 matched).1
      exact (apart.tracks (Nat.le_of_lt bound)).swallowed_of_closesSkipped closes
  · intro own close bound left matched kept around inside skipped
    have tracks := tracks_of_own (fun position _ => (own position).1) (Nat.le_of_lt bound)
    obtain ⟨here, open_eq⟩ := mem_opening?_iff.1 matched
    -- something is to be swallowed, so that this right parenthesis is
    have waiting : 0 < (stateAt default tokens close).skipped := by
      rw [tracks.skipped_eq, open_eq]
      exact List.countP_pos_iff.2 ⟨around, .tail _ inside, by simpa using skipped⟩
    obtain ⟨left', matched', skipped'⟩ := (own close).1 ⟨here, waiting⟩
    obtain rfl := Option.mem_unique matched matched'
    exact kept skipped'

/-- A group that is kept ends at its own right parenthesis: there, the frames are those around
it. -/
theorem KeepsApart.outer_eq (apart : KeepsApart default tokens)
    (matched : left ∈ opening? tokens close) (kept : ¬IsSkipped default tokens left) :
    (stateAt default tokens close).outer =
      (stateAt default tokens left).frame :: (stateAt default tokens left).outer := by
  obtain ⟨here, open_eq⟩ := mem_opening?_iff.1 matched
  obtain ⟨bound, _⟩ := List.getElem?_eq_some_iff.1 here
  have leftBound : left ≤ tokens.length :=
    Nat.le_of_lt (Nat.lt_trans (lt_of_mem_opening? matched) bound)
  rw [(apart.tracks (Nat.le_of_lt bound)).outer_eq, (apart.tracks leftBound).outer_eq, open_eq,
    List.filter_cons_of_pos (by simpa using kept), List.map_cons]

end SearchKeys.Parser
