/-
# The keys of a query

Whatever the tokens, the parser moves each term and each phrase into the tree exactly once and
keeps their order. The same holds of the other modes, which build their queries without it.

## Main definitions

* `Fold.leaves`, `Parser.leavesOf`: the keys of what has been folded, and of all open
  expressions.

## Main results

* `Parser.leaves_parse`: the keys of a returned tree are the terms and phrases.
* `keys_of_query`: so are the keys of a query, in every mode.
-/

import SearchKeys.Mode.Registry
import SearchKeys.Proofs.Mode.Terms
import SearchKeys.Proofs.Query.Built
import SearchKeys.Proofs.Text.Utf8

namespace SearchKeys

theorem Node.gathers_leaves : Node.Gathers Node.leaves := by
  intro conjunction children
  rw [Node.leaves]

namespace Fold

variable {default : Conjunction} {link : Option Conjunction} {node : Node} {fold : Fold}

/-- The keys of everything folded so far, in order. -/
def leaves (fold : Fold) : List String :=
  fold.gather Node.leaves

@[simp] theorem leaves_empty : empty.leaves = [] := rfl

@[simp] theorem leaves_finish : (fold.finish default).elim [] Node.leaves = fold.leaves :=
  gather_finish Node.gathers_leaves ..

@[simp] theorem leaves_attach :
    (fold.attach default link node).leaves = fold.leaves ++ node.leaves :=
  gather_attach Node.gathers_leaves

end Fold

namespace Parser

variable {default : Conjunction} {frame : Frame} {outer : List Frame}

@[simp] theorem Frame.leaves_negated (operand : Node) :
    (frame.negated operand).leaves = operand.leaves := by
  unfold negated
  induction frame.negations.length generalizing operand with
  | zero => rfl
  | succ count ih => simpa using ih operand.not

theorem Frame.leaves_resolve (default : Conjunction) (frame : Frame) (operand : Option Node) :
    (frame.resolve default operand).1.fold.leaves =
      frame.fold.leaves ++ operand.elim [] Node.leaves := by
  cases operand with
  | none => simp [Frame.abandon_fst]
  | some node => simp [Frame.accept_fst]

/-- The keys of all open expressions, outermost first. -/
def leavesOf (frame : Frame) (outer : List Frame) : List String :=
  outer.reverse.flatMap (·.fold.leaves) ++ frame.fold.leaves

/-- A step adds the key of its token behind the others. -/
theorem Effect.leaves {state : State} {token : Token} {skipped : Nat}
    (effect : Effect default state token frame outer skipped) :
    leavesOf frame outer = leavesOf state.frame state.outer ++ token.key?.toList := by
  cases effect with
  | @key _ text carries =>
    have added := Frame.leaves_resolve default state.frame (some (.keys text))
    simp [leavesOf, carries, ← Frame.resolve_some, added, Node.leaves]
  | join conjunction => simp [leavesOf, Token.key?]
  | openGroup room => simp [leavesOf, Frame.fresh, Token.key?]
  | closeGroup noneSkipped inside =>
    simp [leavesOf, inside, Frame.leaves_resolve, Token.key?]
  | _ => simp [leavesOf, Frame.abandon_fst, Token.key?]

theorem leavesOf_run (state : State) (tokens : List Token) :
    leavesOf (run default state tokens).frame (run default state tokens).outer =
      leavesOf state.frame state.outer ++ tokens.filterMap Token.key? := by
  induction tokens generalizing state with
  | nil => simp [run]
  | cons token tokens ih =>
    have first := (step_effect default state token).leaves
    have rest := ih (step default state token)
    rw [first] at rest
    rw [run_cons, List.filterMap_cons]
    cases key : token.key? <;> simpa [key] using rest

theorem leaves_nodeOf :
    (nodeOf default frame outer).elim [] Node.leaves = leavesOf frame outer := by
  induction outer generalizing frame with
  | nil => simp [nodeOf, leavesOf]
  | cons around outer ih => simp [nodeOf, ih, leavesOf, Frame.leaves_resolve]

/-- The keys of the returned tree are the terms and phrases among the tokens, in order. -/
theorem leaves_parse (default : Conjunction) (tokens : List Token) :
    ((parse default tokens).node).elim [] Node.leaves = tokens.filterMap Token.key? := by
  rw [parse_node, leaves_nodeOf, leavesOf_run]
  simp [leavesOf, State.initial, Frame.fresh]

/-- There is no tree exactly if no token is a term or a phrase. -/
theorem parse_eq_none_iff (tokens : List Token) :
    (parse default tokens).node = none ↔ tokens.filterMap Token.key? = [] := by
  rw [← leaves_parse default]
  cases parsed : (parse default tokens).node with
  | none => simp
  | some node =>
    simpa using ((parse_wellFormed parsed).mono (by decide)).leaves_ne_nil

end Parser

/-! ### Modes -/

/-- The query is there exactly if a token is a term or a phrase, and then its keys are these
tokens in order. -/
def Analysis.KeepsKeys (analysis : Analysis) : Prop :=
  (∀ query, analysis.query = some query →
    query.leaves = analysis.tokens.filterMap Token.key?) ∧
  (analysis.query = none ↔ analysis.tokens.filterMap Token.key? = [])

namespace Group

variable {default : Conjunction} {node : Option Node} {query : Group}

theorem leaves_of_ofNode? (made : ofNode? default node = some query) :
    query.leaves = node.elim [] Node.leaves := by
  match node, made with
  | some (.keys text), rfl => simp [leaves, Node.leaves]
  | some (.group _ _ (first :: rest)), rfl => simp [leaves, Node.leaves]

/-- A group with children is a query as it is. -/
theorem ofNode?_node (notEmpty : query.children ≠ []) :
    ofNode? default (some query.node) = some query := by
  obtain ⟨conjunction, negated, children⟩ := query
  obtain ⟨first, rest, rfl⟩ := List.exists_cons_of_ne_nil notEmpty
  rfl

theorem ofNode?_eq_none_iff (notEmpty : ∀ tree, node = some tree → tree.leaves ≠ []) :
    ofNode? default node = none ↔ node = none := by
  match node with
  | none => simp [ofNode?]
  | some (.keys text) => simp [ofNode?]
  | some (.group _ _ []) => exact absurd (by simp [Node.leaves]) (notEmpty _ rfl)
  | some (.group _ _ (first :: rest)) => simp [ofNode?]

end Group

namespace Mode

variable (default : Conjunction) (text : List Char)

theorem analyzeComplex_keepsKeys : (analyzeComplex default text).KeepsKeys := by
  have keys := Parser.leaves_parse default (Token.scan text).1
  constructor
  · intro query made
    exact (Group.leaves_of_ofNode? made).trans keys
  · refine (Group.ofNode?_eq_none_iff fun tree parsed => ?_).trans
      (Parser.parse_eq_none_iff (Token.scan text).1)
    exact ((Parser.parse_wellFormed parsed).mono (by decide)).leaves_ne_nil

theorem analyzeTerms_keepsKeys : (analyzeTerms default text).KeepsKeys := by
  have keys := Terms.keys_tokens (Terms.items_carry (Terms.pieces text))
  simp only [Analysis.KeepsKeys, analyzeTerms, Terms.query?, keys]
  constructor
  · intro query made
    split at made
    · cases made
    · obtain rfl := Option.some.inj made
      exact Terms.leaves_items _
  · simp

theorem analyzePhrase_keepsKeys : (analyzePhrase default text).KeepsKeys := by
  simp only [analyzePhrase]
  split
  · simp [Analysis.KeepsKeys, Analysis.empty]
  · simp [Analysis.KeepsKeys, Group.leaves, Node.leaves, Token.key?]

/-- The modes that are always there, in the order of their ids. -/
theorem createAll_standard :
    Registry.standard.createAll default = [complex default, phrase default, terms default] :=
  rfl

theorem analyze_ofText (id label description : String) (analyze : List Char → Analysis) :
    (ofText id label description default analyze).analyze (Text.encode text) =
      .ok (analyze text) := by
  simp [ofText, decodeKeys, Text.decode_encode, Except.map]

end Mode

/-- The query in keys that are a text. -/
theorem Query.ofBytes?_encode (default : Conjunction) (text : List Char) :
    ofBytes? default (Text.encode text) =
      Group.ofNode? default (Parser.parse default (Token.scan text).1).node := by
  rw [ofBytes?, Mode.query?, Mode.complex, Mode.analyze_ofText]
  rfl

/-- Every mode that is always there turns the terms and phrases of readable keys into the keys
of its query, each once and in their order, and so does the parser with tokens of any kind. -/
theorem keys_of_query (default : Conjunction) :
    (∀ mode ∈ Registry.standard.createAll default, ∀ text : List Char,
      ∃ analysis, mode.analyze (Text.encode text) = .ok analysis ∧ analysis.KeepsKeys) ∧
    (∀ tokens : List Token,
      ((Parser.parse default tokens).node).elim [] Node.leaves = tokens.filterMap Token.key? ∧
      ((Parser.parse default tokens).node = none ↔ tokens.filterMap Token.key? = [])) := by
  refine ⟨fun mode standard text => ?_, fun tokens =>
    ⟨Parser.leaves_parse default tokens, Parser.parse_eq_none_iff tokens⟩⟩
  rw [Mode.createAll_standard] at standard
  simp only [List.mem_cons, List.not_mem_nil, or_false] at standard
  rcases standard with rfl | rfl | rfl
  · exact ⟨_, Mode.analyze_ofText .., Mode.analyzeComplex_keepsKeys default text⟩
  · exact ⟨_, Mode.analyze_ofText .., Mode.analyzePhrase_keepsKeys default text⟩
  · exact ⟨_, Mode.analyze_ofText .., Mode.analyzeTerms_keepsKeys default text⟩

end SearchKeys
