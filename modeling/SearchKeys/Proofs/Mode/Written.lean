/-
# Written items

A list of words and phrases, some of them excluded, is written item by item: a hyphen in front of
what is excluded, quotes around a phrase, and blanks between the items and around them all. The
terms mode reads back what is written in this way, whatever the blanks are.

A word may begin with a hyphen if it cannot be taken for an exclusion, so it is a single hyphen or
begins with two. Behind a hyphen that excludes, no such word is read.

## Main definitions

* `Terms.Item.source`: an item as it is written.
* `Terms.Item.Writable`: items that can be written.
* `Terms.written`: items behind one another, with gaps between them.

## Main results

* `Terms.pieces_written`: written items are cut where they were put together.
* `Terms.items_pieces_written`: written items are read back.
* `Terms.exists_item_of_tokens`: each key among the tokens of items is that of one item, whose
  exclusion stands directly in front of it.
* `Mode.analyze_terms_written`: the analysis of written items, and which children of any query are
  negations.
-/

import SearchKeys.Proofs.Query.Proper

namespace SearchKeys

namespace Terms

variable {item : Item} {gap trail rest : List Char} {entries : List (List Char × Item)}

/-! ### Items as they are written -/

namespace Item

/-- The word, or the phrase between quotes, without its exclusion. -/
def bare (item : Item) : List Char :=
  match item.token with
  | .phrase value => '"' :: value.toList ++ ['"']
  | token => token.value.toList

/-- An item as it is written, behind a hyphen if it is excluded. -/
def source (item : Item) : List Char :=
  if item.excluded then '-' :: item.bare else item.bare

/-- The piece that a word or a phrase is read as. -/
def piece (item : Item) : Piece :=
  match item.token with
  | .phrase value => .quoted value.toList
  | token => .word token.value.toList

/-- The pieces that an item is read as. -/
def pieces (item : Item) : List Piece :=
  if item.excluded then [.hyphen, item.piece] else [item.piece]

/-- An item that can be written. -/
inductive Writable : Item → Prop
  /-- A word without blanks and quotes that is not taken for an exclusion. -/
  | word {excluded : Bool} {value : String} (notEmpty : value ≠ "")
      (inside : ∀ c ∈ value.toList, Text.isBlank c = false ∧ c ≠ '"')
      (hyphen : value.toList.head? = some '-' →
        excluded = false ∧ (value.toList = ['-'] ∨ value.toList.take 2 = ['-', '-'])) :
      Writable ⟨excluded, .term value⟩
  /-- A phrase without quotes, with single spaces between its words and no other blanks. -/
  | phrase {excluded : Bool} {value : String} (notEmpty : value ≠ "")
      (noQuote : '"' ∉ value.toList) (spaced : Text.SingleSpaced value.toList) :
      Writable ⟨excluded, .phrase value⟩

namespace Writable

/-- A word or a phrase is read up to the blank behind it. -/
theorem starts (writable : item.Writable)
    (stops : ∀ c, rest.head? = some c → Text.isBlank c) :
    Starts (item.bare ++ rest) item.piece rest := by
  cases writable with
  | @word excluded value notEmpty inside hyphen =>
    have notEmpty : value.toList ≠ [] := by simpa using notEmpty
    refine .word notEmpty (fun c member => isWordChar_iff.2 (inside c member)) ?_ ?_
    · intro c head
      simp [isWordChar, stops c head]
    · -- a hyphen at the beginning has a blank, nothing or another hyphen behind it
      intro after whole
      obtain ⟨c, others, parts⟩ := List.exists_cons_of_ne_nil notEmpty
      rw [parts] at hyphen
      simp only [bare, Token.value, parts, List.cons_append, List.cons.injEq] at whole
      obtain ⟨rfl, rfl⟩ := whole
      rcases (hyphen rfl).2 with single | double
      · obtain rfl : others = [] := by simpa using single
        cases rest with
        | nil => rfl
        | cons d rest => simp [excludes, stops d rfl]
      · cases others with
        | nil => simp at double
        | cons d others =>
          obtain rfl : d = '-' := by simpa using double
          simp [excludes]
  | phrase notEmpty noQuote spaced =>
    simpa [bare, piece] using Starts.quoted noQuote

/-- A hyphen excludes a word or a phrase behind it. -/
theorem excludes (writable : item.Writable) (excluded : item.excluded) (rest : List Char) :
    Terms.excludes (item.bare ++ rest) := by
  cases writable with
  | @word _ value notEmpty inside hyphen =>
    have notEmpty : value.toList ≠ [] := by simpa using notEmpty
    obtain ⟨c, others, parts⟩ := List.exists_cons_of_ne_nil notEmpty
    rw [parts] at inside hyphen
    have visible := (inside c (.head _)).1
    have notHyphen : c ≠ '-' := by
      rintro rfl
      cases excluded.symm.trans (hyphen rfl).1
    simp [bare, Token.value, parts, Terms.excludes, visible, notHyphen]
  | phrase =>
    have visible : Text.isBlank '"' = false := by decide
    simp [bare, Terms.excludes, visible]

/-- An item is cut off in front of a blank. -/
theorem pieces_source_append (writable : item.Writable)
    (stops : ∀ c, rest.head? = some c → Text.isBlank c) :
    Terms.pieces (item.source ++ rest) = item.pieces ++ Terms.pieces rest := by
  rw [source, pieces]
  split
  · next excluded =>
    have hyphen : Starts ('-' :: (item.bare ++ rest)) .hyphen (item.bare ++ rest) :=
      .hyphen (writable.excludes excluded rest)
    rw [List.cons_append, hyphen.pieces_eq, (writable.starts stops).pieces_eq]
    rfl
  · rw [(writable.starts stops).pieces_eq]
    rfl

/-- The pieces of an item are read as the item. -/
theorem itemsFrom_pieces (writable : item.Writable) (done : List Item) (behind : List Piece) :
    itemsFrom done false (item.pieces ++ behind) = itemsFrom (item :: done) false behind := by
  cases writable with
  | @word excluded => cases excluded <;> simp [pieces, piece, itemsFrom, Token.value]
  | @phrase excluded value notEmpty _ spaced =>
    cases excluded <;>
      simp [pieces, piece, itemsFrom, Text.collapse_of_singleSpaced spaced, notEmpty]

theorem loneQuote_notMem (writable : item.Writable) : .loneQuote ∉ item.pieces := by
  cases writable with
  | @word excluded => cases excluded <;> simp [pieces, piece]
  | @phrase excluded => cases excluded <;> simp [pieces, piece]

end Writable

end Item

/-! ### Items behind one another -/

theorem pieces_blanks_append (blank : Text.allBlank gap) (rest : List Char) :
    pieces (gap ++ rest) = gap.map .blank ++ pieces rest := by
  induction gap with
  | nil => rfl
  | cons c gap ih =>
    obtain ⟨here, later⟩ := List.forall_mem_cons.1 (List.all_eq_true.1 blank)
    have starts : Starts (c :: (gap ++ rest)) (.blank c) (gap ++ rest) := .blank here
    rw [List.cons_append, starts.pieces_eq, ih (List.all_eq_true.2 later)]
    rfl

theorem itemsFrom_blanks (gap : List Char) (done : List Item) (excluded : Bool)
    (behind : List Piece) :
    itemsFrom done excluded (gap.map .blank ++ behind) = itemsFrom done excluded behind := by
  induction gap with
  | nil => rfl
  | cons c gap ih => rw [List.map_cons, List.cons_append, itemsFrom, ih]

/-- Items behind one another, each with a gap in front of it, and what stands behind the last. -/
def written (entries : List (List Char × Item)) (trail : List Char) : List Char :=
  (entries.flatMap fun entry => entry.1 ++ entry.2.source) ++ trail

/-- Items that can be written, each behind a gap. Only the first gap may be empty. -/
structure Spaced (entries : List (List Char × Item)) : Prop where
  writable : ∀ entry ∈ entries, entry.2.Writable
  blank : ∀ entry ∈ entries, Text.allBlank entry.1
  apart : ∀ entry ∈ entries.tail, entry.1 ≠ []

theorem Spaced.tail {entry : List Char × Item} (spaced : Spaced (entry :: entries)) :
    Spaced entries where
  writable := (List.forall_mem_cons.1 spaced.writable).2
  blank := (List.forall_mem_cons.1 spaced.blank).2
  apart := fun _ member => spaced.apart _ (List.mem_of_mem_tail member)

section Written

variable (spaced : Spaced entries)
include spaced

/-- Written items are cut where they were put together. -/
theorem pieces_written (trailBlank : Text.allBlank trail) :
    pieces (written entries trail) =
      (entries.flatMap fun entry => entry.1.map .blank ++ entry.2.pieces) ++ trail.map .blank := by
  induction entries with
  | nil => simpa [written] using pieces_blanks_append trailBlank []
  | cons entry entries ih =>
    -- the item is followed by the gap of the next one, or by the blanks at the end
    have stops : ∀ c, (written entries trail).head? = some c → Text.isBlank c := by
      intro c head
      cases entries with
      | nil => exact List.all_eq_true.1 trailBlank c (List.mem_of_head? head)
      | cons next entries =>
        have gap := spaced.apart next (.head _)
        rw [written, List.flatMap_cons, List.append_assoc, List.append_assoc,
          List.head?_append_of_ne_nil _ gap] at head
        exact List.all_eq_true.1 (spaced.tail.blank next (.head _)) c (List.mem_of_head? head)
    have parts : written (entry :: entries) trail =
        entry.1 ++ (entry.2.source ++ written entries trail) := by
      simp [written]
    have cut := (spaced.writable entry (.head _)).pieces_source_append stops
    rw [parts, pieces_blanks_append (spaced.blank entry (.head _)), cut, ih spaced.tail]
    simp

theorem loneQuote_notMem_pieces_written (trailBlank : Text.allBlank trail) :
    .loneQuote ∉ pieces (written entries trail) := by
  rw [pieces_written spaced trailBlank]
  simp only [List.mem_append, List.mem_flatMap, List.mem_map, not_or, not_exists, not_and]
  exact ⟨fun entry member => ⟨by simp, (spaced.writable entry member).loneQuote_notMem⟩, by simp⟩

/-- Written items are read back. -/
theorem items_pieces_written (trailBlank : Text.allBlank trail) :
    items (pieces (written entries trail)) = entries.map Prod.snd := by
  have read (done : List Item) : itemsFrom done false
      ((entries.flatMap fun entry => entry.1.map .blank ++ entry.2.pieces) ++
        trail.map .blank) = done.reverse ++ entries.map Prod.snd := by
    induction entries generalizing done with
    | nil => simpa [itemsFrom] using itemsFrom_blanks trail done false []
    | cons entry entries ih =>
      have here := spaced.writable entry (.head _)
      rw [List.flatMap_cons, List.append_assoc, List.append_assoc, itemsFrom_blanks,
        here.itemsFrom_pieces, ih spaced.tail]
      simp
  rw [pieces_written spaced trailBlank, items, read]
  rfl

end Written

/-! ### Keys and their exclusions -/

section Exclusions

variable {items : List Item} {before after : List Token} {token : Token}

theorem isNegation_node (item : Item) : item.node.isNegation = item.excluded := by
  cases excluded : item.excluded with
  | false => simp [Item.node, excluded, Node.isNegation]
  | true => simp [Item.node, excluded]

/-- An element of joined lists is one of a single list, with what comes before it. -/
theorem exists_of_flatMap_eq {α β : Type} {f : α → List β} {list : List α} {before after : List β}
    {b : β} (parts : list.flatMap f = before ++ b :: after) :
    ∃ earlier a later front back, list = earlier ++ a :: later ∧ f a = front ++ b :: back ∧
      before = earlier.flatMap f ++ front := by
  induction list generalizing before with
  | nil => simp at parts
  | cons first others ih =>
    rw [List.flatMap_cons] at parts
    rcases List.append_eq_append_iff.1 parts with ⟨rest, rfl, behind⟩ | ⟨rest, here, behind⟩
    · obtain ⟨earlier, a, later, front, back, rfl, found, rfl⟩ := ih behind
      exact ⟨first :: earlier, a, later, front, back, rfl, found, by simp⟩
    · cases rest with
      | nil =>
        have behind : others.flatMap f = [] ++ b :: after := behind.symm
        obtain ⟨earlier, a, later, front, back, rfl, found, same⟩ := ih behind
        refine ⟨first :: earlier, a, later, front, back, rfl, found, ?_⟩
        rw [List.flatMap_cons, List.append_assoc, ← same, List.append_nil, here, List.append_nil]
      | cons c rest =>
        obtain ⟨rfl, rfl⟩ := List.cons.inj behind
        exact ⟨[], first, others, before, rest, rfl, here, by simp⟩

/-- The tokens of items end with a key. -/
theorem getLast?_tokens_ne (carry : ∀ item ∈ items, item.token.key? = some item.token.value) :
    (items.flatMap Item.tokens).getLast? ≠ some (.operator .not) := by
  rcases List.eq_nil_or_concat items with rfl | ⟨front, item, rfl⟩
  · simp
  · have key := carry item (by simp)
    have notEmpty : item.tokens ≠ [] := by
      rw [Item.tokens]
      split <;> simp
    have last : item.tokens.getLast? = some item.token := by
      rw [Item.tokens]
      split <;> simp
    rw [List.concat_eq_append, List.flatMap_append, List.flatMap_singleton,
      List.getLast?_append_of_ne_nil _ notEmpty, last]
    intro same
    have noKey : Token.key? (.operator .not) = none := rfl
    simp [Option.some.inj same, noKey] at key

/-- Each key among the tokens of items is that of one item, and `NOT` stands directly in front of
it exactly if the item is excluded. -/
theorem exists_item_of_tokens
    (carry : ∀ item ∈ items, item.token.key? = some item.token.value)
    (parts : items.flatMap Item.tokens = before ++ token :: after) (isKey : token.key?.isSome) :
    ∃ earlier item later, items = earlier ++ item :: later ∧ item.token = token ∧
      (before.filterMap Token.key?).length = earlier.length ∧
      (item.excluded ↔ before.getLast? = some (.operator .not)) := by
  have noKey : Token.key? (.operator .not) = none := rfl
  obtain ⟨earlier, item, later, front, back, rfl, found, rfl⟩ := exists_of_flatMap_eq parts
  have carryEarlier : ∀ item ∈ earlier, item.token.key? = some item.token.value :=
    fun item member => carry item (by simp [member])
  have keys : ((earlier.flatMap Item.tokens).filterMap Token.key?).length = earlier.length := by
    rw [keys_tokens carryEarlier, List.length_map]
  refine ⟨earlier, item, later, rfl, ?_⟩
  rw [Item.tokens] at found
  cases excluded : item.excluded with
  | false =>
    obtain ⟨rfl, same⟩ : front = [] ∧ item.token = token := by
      cases front <;> simp_all
    simp [same, keys, getLast?_tokens_ne carryEarlier]
  | true =>
    obtain ⟨rfl, same⟩ : front = [.operator .not] ∧ item.token = token := by
      rcases front with _ | ⟨first, _ | ⟨second, front⟩⟩ <;> simp_all
    simp [same, keys, noKey]

end Exclusions

end Terms

namespace Mode

/-- Items that are written are read back in their order, each excluded one behind `NOT` and as a
negation, and nothing is warned about. Whatever the text is, each key among the tokens belongs to
the child of the query in its place, which is a negation exactly if `NOT` stands directly in front
of the key. -/
theorem analyze_terms_written (default : Conjunction) :
    (∀ (entries : List (List Char × Terms.Item)) (trail : List Char), entries ≠ [] →
      Terms.Spaced entries → Text.allBlank trail →
      (terms default).analyze (Text.encode (Terms.written entries trail)) = .ok
        ⟨entries.flatMap fun (_, item) =>
            if item.excluded then [.operator .not, item.token] else [item.token],
          some ⟨if entries.any (·.2.excluded) then .and else default, false,
            entries.map fun (_, item) =>
              if item.excluded then .group .and true [.keys item.token.value]
              else .keys item.token.value⟩,
          []⟩) ∧
    ∀ (keys : List UInt8) (text : List Char), Text.decode keys = .ok text →
      ∃ analysis, (terms default).analyze keys = .ok analysis ∧
        (∀ query, analysis.query = some query →
          query.children.length = (analysis.tokens.filterMap Token.key?).length) ∧
        ∀ before token after, analysis.tokens = before ++ token :: after → token.key?.isSome →
          ∃ query child, analysis.query = some query ∧
            query.children[(before.filterMap Token.key?).length]? = some child ∧
            (child.isNegation ↔ before.getLast? = some (.operator .not)) := by
  constructor
  · intro entries trail notEmpty spaced trailBlank
    have read := Terms.items_pieces_written spaced trailBlank
    have silent := Terms.warnings_eq_nil (Terms.loneQuote_notMem_pieces_written spaced trailBlank)
    have isQuery : Terms.query? default (entries.map Prod.snd) = some
        ⟨if (entries.map Prod.snd).any Terms.Item.excluded then .and else default, false,
          (entries.map Prod.snd).map Terms.Item.node⟩ :=
      Terms.query?_eq_some_iff.2 ⟨by simpa using notEmpty, rfl⟩
    rw [terms, analyze_ofText, analyzeTerms, read, silent, isQuery, List.flatMap_map, List.any_map,
      List.map_map]
    rfl
  · intro keys text decoded
    have carry := Terms.items_carry (Terms.pieces text)
    obtain rfl := Text.decode_eq_ok_iff.1 decoded
    refine ⟨_, analyze_ofText .., fun query isQuery => ?_, fun before token after parts isKey => ?_⟩
    · obtain ⟨-, rfl⟩ := Terms.query?_eq_some_iff.1 isQuery
      rw [analyzeTerms, Terms.keys_tokens carry, List.length_map, List.length_map]
    · obtain ⟨earlier, item, later, items_eq, -, place, excluded_iff⟩ :=
        Terms.exists_item_of_tokens carry parts isKey
      have notEmpty : Terms.items (Terms.pieces text) ≠ [] := by simp [items_eq]
      refine ⟨_, item.node, Terms.query?_eq_some_iff.2 ⟨notEmpty, rfl⟩, ?_, ?_⟩
      · simp [items_eq, place]
      · rw [Terms.isNegation_node, excluded_iff]

/-- Words that begin with hyphens stand between excluded items, and a hyphen in front of a quote
without a partner excludes the next word. -/
theorem analyze_terms_written_hyphens :
    let entries : List (List Char × Terms.Item) := [([], ⟨false, .term "--x"⟩),
      ([' ', '\u3000'], ⟨true, .phrase "a b"⟩), (['\n'], ⟨true, .term "e-mail"⟩),
      ([' '], ⟨false, .term "-"⟩)]
    entries ≠ [] ∧ Terms.Spaced entries ∧ Text.allBlank ['\t'] ∧
      Terms.written entries ['\t'] = "--x \u3000-\"a b\"\n-e-mail -\t".toList ∧
      (terms .or).analyze (Text.encode (Terms.written entries ['\t'])) = .ok
        ⟨[.term "--x", .operator .not, .phrase "a b", .operator .not, .term "e-mail", .term "-"],
          some ⟨.and, false, [.keys "--x", .group .and true [.keys "a b"],
            .group .and true [.keys "e-mail"], .keys "-"]⟩, []⟩ ∧
      ∃ analysis query child, (terms .or).analyze (Text.encode "x -\" y".toList) = .ok analysis ∧
        analysis.tokens = [.term "x", .operator .not] ++ .term "y" :: [] ∧
        analysis.query = some query ∧ query.children[1]? = some child ∧ child.isNegation := by
  intro entries
  obtain ⟨readBack, placed⟩ := analyze_terms_written .or
  have phrase : Text.SingleSpaced "a b".toList := Text.singleSpaced_collapse "a b".toList
  have spaced : Terms.Spaced entries := by
    refine ⟨?_, by decide, by decide⟩
    simp only [entries, List.forall_mem_cons, List.not_mem_nil, false_imp_iff, implies_true,
      and_true]
    exact ⟨.word (by decide) (by simp [Text.isBlank]) (by decide),
      .phrase (by decide) (by decide) phrase,
      .word (by decide) (by simp [Text.isBlank]) (by decide),
      .word (by decide) (by simp [Text.isBlank]) (by decide)⟩
  refine ⟨by decide, spaced, by decide, by decide,
    readBack entries ['\t'] (by decide) spaced (by decide), ?_⟩
  obtain ⟨analysis, read, -, place⟩ := placed _ _ (Text.decode_encode "x -\" y".toList)
  have tokens : analysis.tokens = [.term "x", .operator .not] ++ .term "y" :: [] := by
    obtain rfl := Except.ok.inj ((analyze_ofText ..).symm.trans read)
    decide +kernel
  obtain ⟨query, child, isQuery, found, negation_iff⟩ := place _ _ _ tokens rfl
  exact ⟨analysis, query, child, read, tokens, isQuery, found, negation_iff.2 rfl⟩

end Mode

end SearchKeys
