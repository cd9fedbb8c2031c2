/-
# What is left without blanks

Taking the blanks away leaves something visible or nothing at all. Words that are joined by spaces
have single spaces between them and no other blanks.

## Main definitions

* `Text.SingleSpaced`: a text with single spaces between its words.

## Main results

* `Text.takeWhile_append`, `Text.dropWhile_append`: a run of characters ends where the text behind
  it begins with another character.
* `Text.isBlank_of_mem_words`: the words of a text are not empty, and nothing in them is blank.
* `Text.words_append`: a word is the first one of a text that begins with it and stops there.
* `Text.collapse_eq_nil_iff`: nothing is left of a text exactly if it is blank.
* `Text.not_allBlank_collapse`, `Text.not_allBlank_trim`: what is left of a text without blanks
  at its ends is not blank unless it is empty.
* `Text.singleSpaced_collapse`: joined words are single-spaced.
* `Text.collapse_of_singleSpaced`: nothing changes in a single-spaced text.
-/

import SearchKeys.Proofs.Text.Joined
import SearchKeys.Text.Blank
import Mathlib.Data.List.Basic
import Mathlib.Data.List.Chain

namespace SearchKeys.Text

variable {text word : List Char}

section Runs

variable {inRun : Char → Bool} {rest : List Char}

theorem takeWhile_append (inside : ∀ c ∈ word, inRun c)
    (stops : ∀ c, rest.head? = some c → inRun c = false) :
    (word ++ rest).takeWhile inRun = word := by
  rw [List.takeWhile_append_of_pos inside]
  cases rest with
  | nil => simp
  | cons c rest => simp [stops c rfl]

theorem dropWhile_append (inside : ∀ c ∈ word, inRun c)
    (stops : ∀ c, rest.head? = some c → inRun c = false) :
    (word ++ rest).dropWhile inRun = rest := by
  rw [List.dropWhile_append_of_pos inside]
  cases rest with
  | nil => rfl
  | cons c rest => simp [stops c rfl]

end Runs

/-- Nothing in a piece of a text separates pieces. -/
theorem of_mem_splitOnP {separates : Char → Bool} (member : word ∈ text.splitOnP separates) :
    ∀ c ∈ word, separates c = false ∧ c ∈ text := by
  induction text generalizing word with
  | nil => simp_all
  | cons c text ih =>
    have later (member : word ∈ text.splitOnP separates) :
        ∀ d ∈ word, separates d = false ∧ d ∈ c :: text :=
      fun d inside => ⟨(ih member d inside).1, .tail _ (ih member d inside).2⟩
    rw [List.splitOnP_cons_eq_if_modifyHead] at member
    split at member
    · rcases List.mem_cons.1 member with rfl | member
      · simp
      · exact later member
    · next inside =>
      obtain ⟨first, others, parts⟩ :=
        List.exists_cons_of_ne_nil (List.splitOnP_ne_nil separates text)
      rw [parts] at ih later
      rw [parts, List.modifyHead_cons] at member
      rcases List.mem_cons.1 member with rfl | member
      · refine List.forall_mem_cons.2 ⟨⟨by simpa using inside, .head _⟩, fun d inside => ?_⟩
        exact ⟨(ih (.head _) d inside).1, .tail _ (ih (.head _) d inside).2⟩
      · exact later (.tail _ member)

/-- The words of a text are not empty, and nothing in them is blank. -/
theorem isBlank_of_mem_words (member : word ∈ words text) :
    word ≠ [] ∧ ∀ c ∈ word, isBlank c = false := by
  obtain ⟨inside, notEmpty⟩ := List.mem_filter.1 member
  exact ⟨by simpa using notEmpty, fun c member => (of_mem_splitOnP inside c member).1⟩

/-- The words of a text are parts of it. -/
theorem subset_of_mem_words (member : word ∈ words text) : word ⊆ text :=
  fun c inside => (of_mem_splitOnP (List.mem_filter.1 member).1 c inside).2

theorem words_nil : words [] = [] := rfl

/-- A blank in front does not matter. -/
theorem words_blank_cons {c : Char} (blank : isBlank c) (text : List Char) :
    words (c :: text) = words text := by
  simp [words, List.splitOnP_cons_eq_if_modifyHead, blank]

/-- A word is the first one of a text that begins with it and does not go on with it. -/
theorem words_append {rest : List Char} (notEmpty : word ≠ [])
    (visible : ∀ c ∈ word, isBlank c = false)
    (stops : ∀ c, rest.head? = some c → isBlank c) : words (word ++ rest) = word :: words rest := by
  cases rest with
  | nil => simp [words, List.splitOnP_eq_singleton visible, notEmpty]
  | cons c rest =>
    have blank := stops c rfl
    rw [words_blank_cons blank, words, List.splitOnP_append_cons_of_forall_mem visible c blank,
      List.filter_cons_of_pos (by simpa using notEmpty)]
    rfl

/-- A text has no words exactly if it is blank. -/
theorem words_eq_nil_iff : words text = [] ↔ allBlank text := by
  induction text with
  | nil => exact ⟨fun _ => rfl, fun _ => words_nil⟩
  | cons c text ih =>
    by_cases blank : isBlank c
    · rw [words_blank_cons blank, ih]
      simp [allBlank, blank]
    · -- the characters up to the next blank are the first word
      have visible : ∀ d ∈ c :: text.takeWhile (!isBlank ·), isBlank d = false := by
        refine List.forall_mem_cons.2 ⟨by simpa using blank, fun d member => ?_⟩
        simpa using List.all_eq_true.1 List.all_takeWhile d member
      have stops : ∀ d, (text.dropWhile (!isBlank ·)).head? = some d → isBlank d := by
        intro d head
        have stop := List.head?_dropWhile_not (!isBlank ·) text
        rw [head] at stop
        simpa using stop
      have parts := words_append (List.cons_ne_nil _ _) visible stops
      rw [List.cons_append, List.takeWhile_append_dropWhile] at parts
      simp [parts, allBlank, blank]

/-- Nothing is left of a text exactly if it is blank. -/
theorem collapse_eq_nil_iff : collapse text = [] ↔ allBlank text := by
  rw [← words_eq_nil_iff, collapse]
  cases parts : words text with
  | nil => simp
  | cons word others =>
    have member : word ∈ words text := by simp [parts]
    have notEmpty := (isBlank_of_mem_words member).1
    cases others <;> simp [notEmpty]

/-- Nothing changes in a word. -/
theorem collapse_of_visible (notEmpty : word ≠ []) (visible : ∀ c ∈ word, isBlank c = false) :
    collapse word = word := by
  have single : words (word ++ []) = word :: words [] :=
    words_append notEmpty visible (by simp)
  rw [List.append_nil] at single
  simp [collapse, single, words_nil]

theorem not_allBlank_of_mem {c : Char} (member : c ∈ text) (visible : isBlank c = false) :
    ¬allBlank text := by
  intro blank
  have here := List.all_eq_true.1 blank c member
  simp [visible] at here

/-- Words with single spaces between them are blank only if there are none. -/
theorem not_allBlank_collapse (notEmpty : collapse text ≠ []) : ¬allBlank (collapse text) := by
  cases parts : words text with
  | nil => simp [collapse, parts] at notEmpty
  | cons word others =>
    have member : word ∈ words text := by simp [parts]
    obtain ⟨wordNotEmpty, visible⟩ := isBlank_of_mem_words member
    obtain ⟨c, rest, rfl⟩ := List.exists_cons_of_ne_nil wordNotEmpty
    -- the first word stands in front
    refine not_allBlank_of_mem (c := c) ?_ (visible c (.head _))
    rw [collapse, parts]
    cases others <;> simp

/-- A text without blanks at its ends is blank only if it is empty. -/
theorem not_allBlank_trim (notEmpty : trim text ≠ []) : ¬allBlank (trim text) := by
  have remains : (text.dropWhile isBlank).reverse.dropWhile isBlank ≠ [] := by
    simpa [trim] using notEmpty
  refine not_allBlank_of_mem (List.mem_reverse.2 (List.head_mem remains)) ?_
  exact List.head_dropWhile_not _ remains

/-! ### Single spaces -/

/-- The only blanks of a text are single spaces, and none of them stands at an end. -/
structure SingleSpaced (text : List Char) : Prop where
  spaces : ∀ c ∈ text, isBlank c → c = ' '
  single : text.IsChain fun c next => isBlank c → isBlank next = false
  first : ∀ c, text.head? = some c → isBlank c = false
  last : ∀ c, text.getLast? = some c → isBlank c = false

theorem singleSpaced_of_visible (visible : ∀ c ∈ word, isBlank c = false) :
    SingleSpaced word where
  spaces c member blank := by simp [visible c member] at blank
  single := by
    refine List.Pairwise.isChain (List.pairwise_of_forall_mem_list ?_)
    exact fun _ _ next member _ => visible next member
  first c head := visible c (List.mem_of_head? head)
  last c last := visible c (List.mem_of_getLast? last)

theorem SingleSpaced.word_append (spaced : SingleSpaced text) (textNotEmpty : text ≠ [])
    (notEmpty : word ≠ []) (visible : ∀ c ∈ word, isBlank c = false) :
    SingleSpaced (word ++ ' ' :: text) := by
  have alone := singleSpaced_of_visible visible
  refine ⟨?_, ?_, ?_, ?_⟩
  · intro c member blank
    rcases List.mem_append.1 member with inWord | member
    · exact alone.spaces c inWord blank
    · rcases List.mem_cons.1 member with rfl | inText
      · rfl
      · exact spaced.spaces c inText blank
  · refine List.isChain_append.2 ⟨alone.single, List.isChain_cons.2 ⟨?_, spaced.single⟩, ?_⟩
    · exact fun next head _ => spaced.first next head
    · intro c last next _ blank
      rw [alone.last c last] at blank
      cases blank
  · intro c head
    rw [List.head?_append_of_ne_nil _ notEmpty] at head
    exact alone.first c head
  · intro c last
    rw [List.getLast?_append_of_ne_nil _ (List.cons_ne_nil _ _),
      List.getLast?_cons_of_ne_nil textNotEmpty] at last
    exact spaced.last c last

/-- Words with single spaces between them have no other blanks. -/
theorem singleSpaced_collapse (text : List Char) : SingleSpaced (collapse text) := by
  have each : ∀ word ∈ words text, word ≠ [] ∧ ∀ c ∈ word, isBlank c = false :=
    fun word => isBlank_of_mem_words
  rw [collapse]
  generalize words text = parts at each
  induction parts with
  | nil => exact singleSpaced_of_visible (by simp)
  | cons word others ih =>
    obtain ⟨⟨notEmpty, visible⟩, behind⟩ := List.forall_mem_cons.1 each
    cases others with
    | nil => simpa using singleSpaced_of_visible visible
    | cons next others =>
      have nextNotEmpty : [' '].intercalate (next :: others) ≠ [] := by
        have := behind next (.head _)
        cases others <;> simp [this.1]
      simpa using (ih behind).word_append nextNotEmpty notEmpty visible

/-- A single-spaced text is a word, or a word in front of a space and a single-spaced text. -/
theorem SingleSpaced.exists_word (spaced : SingleSpaced text) (notEmpty : text ≠ []) :
    ∃ word, word ≠ [] ∧ (∀ c ∈ word, isBlank c = false) ∧
      (text = word ∨ ∃ rest, text = word ++ ' ' :: rest ∧ rest ≠ [] ∧ SingleSpaced rest) := by
  obtain ⟨c, others, rfl⟩ := List.exists_cons_of_ne_nil notEmpty
  have whole := List.takeWhile_append_dropWhile (p := (!isBlank ·)) (l := c :: others)
  have stops := List.head?_dropWhile_not (!isBlank ·) (c :: others)
  have visible : ∀ d ∈ (c :: others).takeWhile (!isBlank ·), isBlank d = false := fun d member => by
    simpa using List.all_eq_true.1 List.all_takeWhile d member
  refine ⟨_, by simp [spaced.first c rfl], visible, ?_⟩
  cases behind : (c :: others).dropWhile (!isBlank ·) with
  | nil =>
    rw [behind, List.append_nil] at whole
    exact .inl whole.symm
  | cons d rest =>
    rw [behind] at whole stops
    generalize (c :: others).takeWhile (!isBlank ·) = word at whole
    rw [← whole] at spaced ⊢
    -- the word ends at a space, which is not the end of the text and has no other one behind it
    obtain rfl : d = ' ' := spaced.spaces d (by simp) (by simpa using stops)
    have single := (List.isChain_append.1 spaced.single).2.1
    have restNotEmpty : rest ≠ [] := by
      rintro rfl
      exact absurd (spaced.last ' ' (by simp)) (by decide)
    refine .inr ⟨rest, rfl, restNotEmpty, ?_, single.tail, ?_, ?_⟩
    · exact fun e member => spaced.spaces e (by simp [member])
    · exact fun e head => (List.isChain_cons.1 single).1 e head (by decide)
    · intro e last
      refine spaced.last e ?_
      rwa [List.getLast?_append_of_ne_nil _ (List.cons_ne_nil _ _),
        List.getLast?_cons_of_ne_nil restNotEmpty]

/-- Nothing changes in a single-spaced text. -/
theorem collapse_of_singleSpaced (spaced : SingleSpaced text) : collapse text = text := by
  -- a word takes any number of characters, so the induction is on the length
  induction length : text.length using Nat.strongRecOn generalizing text with
  | ind n ih =>
    rcases eq_or_ne text [] with rfl | notEmpty
    · rfl
    obtain ⟨word, wordNotEmpty, visible, rfl | ⟨rest, rfl, restNotEmpty, restSpaced⟩⟩ :=
      spaced.exists_word notEmpty
    · exact collapse_of_visible wordNotEmpty visible
    · have same := ih _ (by simp at length; omega) restSpaced rfl
      have space : isBlank ' ' := by decide
      rw [collapse, words_append wordNotEmpty visible (by simpa using space),
        words_blank_cons space]
      rw [collapse] at same
      cases parts : words rest with
      | nil => simp [parts, restNotEmpty.symm] at same
      | cons next others =>
        rw [parts] at same
        simpa using same

/-- Nothing but spaces is put into a text. -/
theorem mem_of_mem_collapse {c : Char} (member : c ∈ collapse text) : c = ' ' ∨ c ∈ text := by
  have each : ∀ word ∈ words text, word ⊆ text := fun word => subset_of_mem_words
  rw [collapse] at member
  generalize words text = parts at each member
  cases parts with
  | nil => simp at member
  | cons word others =>
    rw [intercalate_cons, List.mem_append, List.mem_flatMap] at member
    rcases member with inFirst | ⟨word', among, inside⟩
    · exact .inr (each word (.head _) inFirst)
    · rcases List.mem_append.1 inside with space | inside
      · exact .inl (List.mem_singleton.1 space)
      · exact .inr (each word' (.tail _ among) inside)

end SearchKeys.Text
