/-
# Keys that are not read back

A key that has to stand in quotes and ends in a backslash cannot be written: the backslash
escapes the closing quote. The quotation then goes on behind the key, or it is no quotation at
all, and in both cases something else is read in place of the key. The keys in front of it are
still read as they were written, so the query that is read back has other keys.

## Main definitions

* `Token.Misread`: a text in which other keys are read.

## Main results

* `Token.misread_key`: a key that cannot be written is misread.
* `Node.misread_toText`: so are the keys of a tree if one of them cannot be written.
* `Query.writable_of_leaves_eq`: a written query comes back with its keys only if all of them can
  be written.
-/

import SearchKeys.Proofs.Query.Keys
import SearchKeys.Proofs.Query.Written
import SearchKeys.Proofs.Token.Cut

namespace SearchKeys

namespace Segment

/-- A quotation that has a quote in it is a phrase. -/
theorem token?_quoted {body : List Char} (closes : Closes body) (hasQuote : '"' ∈ body) :
    (quoted body).token? = some (.phrase (String.ofList (unescape body))) := by
  rw [← written_unescape closes.1, quote_mem_written_iff] at hasQuote
  have visible := Text.not_allBlank_of_mem hasQuote (by decide)
  rw [token?]
  simp [visible]

end Segment

namespace Token

section Misread

variable {text : List Char} {keys : List String} {tokens : List Token}

/-- Whatever follows the text, its first keys are not these. -/
def Misread (text : List Char) (keys : List String) : Prop :=
  ∀ rest, ¬keys <+: (ofText (text ++ rest)).filterMap key?

/-- What follows the text and its keys does not matter. -/
theorem Misread.append_right (misread : Misread text keys) (behind : List Char)
    (others : List String) : Misread (text ++ behind) (keys ++ others) := by
  intro rest first
  rw [List.append_assoc] at first
  exact misread (behind ++ rest) ((List.prefix_append keys others).trans first)

/-- Neither does what is spelled in front of it. -/
theorem Misread.behind {inFront : List Char} (misread : Misread text keys)
    (spells : Spells inFront tokens) :
    Misread (inFront ++ ' ' :: text) (tokens.filterMap key? ++ keys) := by
  intro rest first
  rw [List.append_assoc, List.cons_append,
    ofText_append_of_spells spells (endsWord_blank_cons _), ofText_blank_cons,
    List.filterMap_append, List.prefix_append_right_inj] at first
  exact misread rest first

theorem Misread.operator_cons (misread : Misread text keys) (operator : Operator) :
    Misread (operator.keyword.toList ++ ' ' :: text) keys :=
  misread.behind (spells_operator operator)

theorem Misread.openParen_cons (misread : Misread text keys) : Misread ('(' :: text) keys := by
  intro rest first
  rw [List.cons_append, ofText_of_starts .openParen] at first
  exact misread rest first

/-- A quoted text that ends in a backslash is misread. -/
theorem misread_quote {text : String} (opens : Segment.EndsOpen text.toList) :
    Misread (quote text).toList [text] := by
  intro rest first
  rw [quote, String.toList_ofList, List.cons_append, List.cons_append, List.append_assoc,
    List.singleton_append] at first
  cases closed : Segment.closeQuote? (text.toList.flatMap phraseChar ++ '"' :: rest) with
  | none =>
    -- a lone quote is read, which does not end in a backslash
    rw [ofText_of_starts (.loneQuote (Segment.closeQuote?_eq_none_iff.1 closed))] at first
    obtain rfl : text = "\"" := by simpa [Segment.token?, key?] using first
    exact absurd opens (by simp [Segment.EndsOpen])
  | some cut =>
    obtain ⟨body, behind⟩ := cut
    obtain ⟨parts, closes⟩ := Segment.closeQuote?_eq_some_iff.1 closed
    obtain ⟨more, longer⟩ := closes.exists_of_endsOpen opens parts
    rw [parts, ofText_of_starts (.quoted closes),
      Segment.token?_quoted closes (by simp [longer])] at first
    have same : text = String.ofList (Segment.unescape body) := by
      simpa [key?] using first
    -- the text is written as the whole body, of which it is only the beginning
    have written := Segment.written_unescape closes.1
    rw [← String.toList_ofList (l := Segment.unescape body), ← same, longer] at written
    simp at written

/-- A key with something visible in it is misread if it cannot be written. -/
theorem misread_key {text : String} (visible : ¬Text.allBlank text.toList)
    (notWritable : ¬Writable text) : Misread (quoteIfNeeded text).toList [text] := by
  have opens : needsQuotes text ∧ Segment.EndsOpen text.toList := by
    simpa [Writable, visible] using notWritable
  rw [quoteIfNeeded, if_pos opens.1]
  exact misread_quote opens.2

end Misread

end Token

namespace Node

open Token (Misread)

/-- The tokens between the members of a group carry no keys. -/
private theorem keys_intercalate (operator : Operator) (members : List (List Token)) :
    ([Token.operator operator].intercalate members).filterMap Token.key? =
      members.flatMap (List.filterMap Token.key?) := by
  cases members with
  | nil => rfl
  | cons first others =>
    have noKey (member : List Token) : ([Token.operator operator] ++ member).filterMap Token.key? =
        member.filterMap Token.key? := rfl
    rw [intercalate_cons, List.filterMap_append, List.filterMap_flatMap, List.flatMap_cons]
    simp only [noKey]

/-- The keys of a tree are those of the tokens that it is written with. -/
theorem keys_tokens {node : Node} (wellFormed : node.WellFormed 1) (nested : Bool) :
    (node.tokens nested).filterMap Token.key? = node.leaves := by
  induction wellFormed generalizing nested with
  | keys text => simp [tokens, leaves]
  | not _ ih =>
    rw [tokens_not, leaves_not, ← ih true]
    rfl
  | @group conjunction children _ _ ih =>
    have joined : ([Token.operator (.ofConjunction conjunction)].intercalate
        (children.map (tokens true))).filterMap Token.key? = children.flatMap leaves := by
      rw [keys_intercalate, List.flatMap_map]
      exact List.flatMap_congr fun child member => ih child member true
    have noKeys : Token.key? .openParen = none ∧ Token.key? .closeParen = none := ⟨rfl, rfl⟩
    rw [tokens, leaves, if_neg Bool.false_ne_true]
    split
    · simpa [noKeys] using joined
    · exact joined

/-- The members of a group are misread if a key of one of them cannot be written. -/
theorem misread_members {children : List Node} (conjunction : Conjunction)
    (wellFormed : ∀ child ∈ children, child.WellFormed 1)
    (misread : ∀ child ∈ children, ¬child.Writable →
      Misread (child.toText true).toList child.leaves)
    (notWritable : ∃ child ∈ children, ¬child.Writable) :
    Misread ((' ' :: conjunction.keyword.toList ++ [' ']).intercalate
      (children.map fun child => (child.toText true).toList)) (children.flatMap leaves) := by
  induction children with
  | nil => simp at notWritable
  | cons first others ih =>
    obtain ⟨firstWellFormed, othersWellFormed⟩ := List.forall_mem_cons.1 wellFormed
    obtain ⟨firstMisread, othersMisread⟩ := List.forall_mem_cons.1 misread
    rw [List.map_cons, List.flatMap_cons]
    by_cases writable : first.Writable
    · -- the first member is read as it is, and the others are misread behind the operator
      have behind := ih othersWellFormed othersMisread (by simpa [writable] using notWritable)
      have spells := spells_toText firstWellFormed writable true
      obtain ⟨second, rest, rfl⟩ : ∃ second rest, others = second :: rest := by
        refine List.exists_cons_of_ne_nil ?_
        rintro rfl
        simp [writable] at notWritable
      have misread := (behind.operator_cons (Operator.ofConjunction conjunction)).behind spells
      rw [Operator.keyword_ofConjunction, keys_tokens firstWellFormed] at misread
      simpa [List.intercalate_cons_cons] using misread
    · cases others with
      | nil => simpa using firstMisread writable
      | cons second rest =>
        rw [List.map_cons, List.intercalate_cons_cons, List.append_assoc]
        exact (firstMisread writable).append_right _ _

/-- If a key of a written tree cannot be written, the tree is read back with other keys. -/
theorem misread_toText {node : Node} (wellFormed : node.WellFormed 1)
    (visible : ∀ text ∈ node.leaves, ¬Text.allBlank text.toList)
    (notWritable : ¬node.Writable) (nested : Bool) :
    Misread (node.toText nested).toList node.leaves := by
  induction wellFormed generalizing nested with
  | keys text =>
    have notWritable : ¬Token.Writable text := by simpa [Writable, leaves] using notWritable
    rw [toText, leaves]
    exact Token.misread_key (visible text (by simp [leaves])) notWritable
  | @not child _ ih =>
    rw [toText_not, leaves_not, String.toList_append]
    have inner : ¬child.Writable := by simpa [Writable] using notWritable
    exact (ih (by simpa using visible) inner true).operator_cons .not
  | @group conjunction children _ inner ih =>
    have someNotWritable : ∃ child ∈ children, ¬child.Writable := by
      simpa [writable_group_iff] using notWritable
    have each : ∀ child ∈ children, ¬child.Writable →
        Misread (child.toText true).toList child.leaves := by
      intro child member notWritable
      refine ih child member (fun text inside => visible text ?_) notWritable true
      rw [leaves]
      exact List.mem_flatMap.2 ⟨child, member, inside⟩
    have members := misread_members conjunction inner each someNotWritable
    -- parentheses around the members carry no keys
    rw [toText, leaves]
    simp only [Bool.false_eq_true, if_false]
    split
    · simpa [Function.comp_def] using (members.append_right [')'] []).openParen_cons
    · simpa [Function.comp_def] using members

end Node

/-- A written query comes back with its keys only if all of them can be written. -/
theorem Query.writable_of_leaves_eq {default : Conjunction} {query read : Group}
    (wellFormed : query.node.WellFormed 1)
    (visible : ∀ text ∈ query.leaves, ¬Text.allBlank text.toList)
    (isRead : ofBytes? default (Text.encode query.toText.toList) = some read)
    (same : read.leaves = query.leaves) : query.node.Writable := by
  -- the keys that are read are those of the tokens, and these start with other keys
  by_contra notWritable
  rw [← query.leaves_node] at visible same
  have misread := Node.misread_toText wellFormed visible notWritable false
  rw [ofBytes?_encode] at isRead
  rw [Group.leaves_of_ofNode? isRead, Parser.leaves_parse] at same
  refine misread [] ?_
  rw [List.append_nil, ← same]
  exact List.prefix_refl _

end SearchKeys
