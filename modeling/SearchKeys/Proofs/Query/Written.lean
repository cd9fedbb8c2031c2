/-
# The tokens of a written query

A query written as keys is a sequence of tokens: its keys with the operators of its groups
between them, a `NOT` for every negation and a pair of parentheses for every nested group with
several children. Cutting the text into tokens gives just these.

## Main definitions

* `Node.tokens`: the tokens that a written tree consists of.
* `Node.Writable`: all keys of a tree can be written.

## Main results

* `Node.scan_toText`: a written tree is cut into its tokens, without a warning.
-/

import SearchKeys.Proofs.Query.Tree
import SearchKeys.Proofs.Token.Spelling

namespace SearchKeys

/-- A conjunction is written as its operator. -/
@[simp] theorem Operator.keyword_ofConjunction (conjunction : Conjunction) :
    (ofConjunction conjunction).keyword = conjunction.keyword := by
  cases conjunction <;> rfl

namespace Token

/-- Texts that spell tokens can be joined by a separator that starts outside a word. -/
theorem spells_intercalate (separator : List Char) (between : List Token)
    (joins : ∀ {text tokens}, Spells text tokens → Spells (separator ++ text) (between ++ tokens))
    (outside : ∀ text, EndsWord (separator ++ text)) (parts : List (List Char × List Token))
    (spells : ∀ part ∈ parts, Spells part.1 part.2) :
    Spells (separator.intercalate (parts.map Prod.fst))
      (between.intercalate (parts.map Prod.snd)) := by
  induction parts with
  | nil => exact spells_nil
  | cons part parts ih =>
    obtain ⟨first, others⟩ := List.forall_mem_cons.1 spells
    cases parts with
    | nil => simpa using first
    | cons next parts =>
      simp only [List.map_cons, List.intercalate_cons_cons, List.append_assoc] at ih ⊢
      exact first.append (joins (ih others)) (outside _)

theorem endsWord_blank_cons (text : List Char) : EndsWord (' ' :: text) :=
  endsWord_cons (by decide)

/-- Tokens with single blanks between them are spelled by what each of them is spelled by. -/
theorem spells_words {tokens : List Token}
    (spelled : ∀ token ∈ tokens, Spells token.source.toList [token]) :
    Spells ([' '].intercalate (tokens.map fun token => token.source.toList)) tokens := by
  have words := spells_intercalate [' '] []
    (fun behind => behind.blank_cons) endsWord_blank_cons
    (tokens.map fun token => (token.source.toList, [token])) (by simpa using spelled)
  have single : ([] : List Token).intercalate (tokens.map fun token => [token]) = tokens := by
    cases tokens with
    | nil => rfl
    | cons first others => simp [intercalate_cons, List.flatMap_map]
  simpa [List.map_map, Function.comp_def, single] using words

/-- A key that needs no quotes is one term. -/
theorem spells_term {text : String} (bare : needsQuotes text = false) :
    Spells text.toList [.term text] := by
  have writable : Writable text := fun quotes => by simp [bare] at quotes
  have written := spells_key writable
  rwa [quoteIfNeeded, ofKey, bare] at written

/-- An operator with blanks around it can stand between two texts. -/
theorem Spells.operator_cons (operator : Operator) {text : List Char} {tokens : List Token}
    (behind : Spells text tokens) :
    Spells (operator.keyword.toList ++ ' ' :: text) (.operator operator :: tokens) :=
  (spells_operator operator).append behind.blank_cons (endsWord_blank_cons text)

end Token

namespace Node

/-- The tokens of a written tree. A nested group with several children takes parentheses. -/
def tokens (nested : Bool) : Node → List Token
  | keys text => [Token.ofKey text]
  | group conjunction negated children =>
    if negated then .operator .not :: children.flatMap (tokens true)
    else
      let joined := [Token.operator (.ofConjunction conjunction)].intercalate
        (children.map (tokens true))
      if nested && decide (1 < children.length) then .openParen :: joined ++ [.closeParen]
      else joined

/-- All keys of the tree can be written. -/
def Writable (node : Node) : Prop :=
  ∀ text ∈ node.leaves, Token.Writable text

theorem writable_group_iff {conjunction : Conjunction} {negated : Bool} {children : List Node} :
    (group conjunction negated children).Writable ↔ ∀ child ∈ children, child.Writable := by
  simp only [Writable, leaves, List.mem_flatMap]
  constructor
  · intro writable child member text inside
    exact writable text ⟨child, member, inside⟩
  · rintro writable text ⟨child, member, inside⟩
    exact writable child member text inside

theorem tokens_not (nested : Bool) (child : Node) :
    child.not.tokens nested = .operator .not :: child.tokens true := by
  simp [not, tokens]

theorem toText_not (nested : Bool) (child : Node) :
    child.not.toText nested = "NOT " ++ child.toText true := by
  simp [not, toText]

/-- A written tree spells its tokens. -/
theorem spells_toText {node : Node} (wellFormed : node.WellFormed 1) (writable : node.Writable)
    (nested : Bool) : Token.Spells (node.toText nested).toList (node.tokens nested) := by
  induction wellFormed generalizing nested with
  | keys text =>
    rw [toText, tokens]
    exact Token.spells_key (writable text (by simp [leaves]))
  | @not child _ ih =>
    rw [toText_not, tokens_not, String.toList_append]
    exact (ih (fun text inside => writable text (by simpa using inside)) true).operator_cons .not
  | @group conjunction children enough _ ih =>
    -- the children are written alike with and without parentheses around them
    have joined : Token.Spells
        ((' ' :: conjunction.keyword.toList ++ [' ']).intercalate
          (children.map fun child => (child.toText true).toList))
        ([Token.operator (.ofConjunction conjunction)].intercalate
          (children.map (tokens true))) := by
      have spells := Token.spells_intercalate (' ' :: conjunction.keyword.toList ++ [' '])
        [Token.operator (.ofConjunction conjunction)]
        (fun {text tokens} behind => ?_) (fun text => Token.endsWord_blank_cons _)
        (children.map fun child => ((child.toText true).toList, child.tokens true)) ?_
      · simpa [List.map_map, Function.comp_def] using spells
      · simpa using (behind.operator_cons (Operator.ofConjunction conjunction)).blank_cons
      · simp only [List.mem_map, forall_exists_index, and_imp]
        rintro _ child member rfl
        exact ih child member (writable_group_iff.1 writable child member) true
    rw [toText, tokens]
    simp only [Bool.false_eq_true, if_false]
    split
    · simpa [Function.comp_def] using
        (joined.append Token.spells_closeParen (Token.endsWord_cons (by decide))).openParen_cons
    · simpa [Function.comp_def] using joined

/-- A written tree is cut into its tokens, and there is nothing to warn about. -/
theorem scan_toText {node : Node} (wellFormed : node.WellFormed 1) (writable : node.Writable)
    (nested : Bool) : Token.scan (node.toText nested).toList = (node.tokens nested, []) :=
  (spells_toText wellFormed writable nested).scan

end Node

end SearchKeys
