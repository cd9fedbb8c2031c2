/-
# A document written line by line

A document with every statement on a line of its own, and possibly empty lines in between, is read
statement by statement. A statement with a string may go over several lines of the text; it counts
as one line here.

## Main definitions

* `Toml.Line`: an empty line, or one that holds a statement whatever follows it.
* `Toml.BareName`: a name that may stand in a key without quotes.

## Main results

* `Toml.statements?_lines`: the statements of lines.
* `Toml.line_header`, `Toml.line_string`, `Toml.line_truth`: a header, a name with a string and a
  name with a truth value.
-/

import SearchKeys.Proofs.Text.Blank
import SearchKeys.Proofs.Toml.Quoting
import SearchKeys.Toml.Document
import Mathlib.Data.List.ReduceOption

namespace SearchKeys.Toml

variable {c : Char} {name written text rest : List Char} {value : Value}

/-! ### Keys of a single name -/

/-- A name that may stand in a key without quotes. -/
structure BareName (name : List Char) : Prop where
  notEmpty : name ≠ []
  inside : ∀ c ∈ name, isBareKeyChar c

instance : DecidablePred BareName := fun name =>
  decidable_of_iff (name ≠ [] ∧ name.all isBareKeyChar)
    ⟨fun both => ⟨both.1, List.all_eq_true.1 both.2⟩,
      fun bare => ⟨bare.notEmpty, List.all_eq_true.2 bare.inside⟩⟩

theorem notMem_of_isBareKeyChar (bare : isBareKeyChar c) :
    c ∉ [' ', '\t', '\n', '\r', '#', '['] := by
  intro member
  simp only [List.mem_cons, List.not_mem_nil, or_false] at member
  rcases member with rfl | rfl | rfl | rfl | rfl | rfl <;> exact absurd bare (by decide)

theorem skipBlanks_cons (notSpace : c ≠ ' ') (notTab : c ≠ '\t') :
    skipBlanks (c :: text) = c :: text := by
  simp [skipBlanks, notSpace, notTab]

/-- A bare name begins with a visible character that opens no header. -/
theorem BareName.exists_cons (bare : BareName name) :
    ∃ first others, name = first :: others ∧ first ∉ [' ', '\t', '\n', '\r', '#', '['] := by
  obtain ⟨first, others, rfl⟩ := List.exists_cons_of_ne_nil bare.notEmpty
  exact ⟨first, others, rfl, notMem_of_isBareKeyChar (bare.inside first (.head _))⟩

/-- A bare name that ends in front of the text is read as a key. -/
theorem key?_bare (bare : BareName name)
    (stops : ∀ c, rest.head? = some c → isBareKeyChar c = false)
    (single : behind? '.' (skipBlanks rest) = none) :
    key? (name ++ rest) = some (⟨[], String.ofList name⟩, rest) := by
  have start : skipBlanks (name ++ rest) = name ++ rest := by
    obtain ⟨first, others, rfl, visible⟩ := bare.exists_cons
    exact skipBlanks_cons (by simp_all) (by simp_all)
  have part : keyPart? (name ++ rest) = some (String.ofList name, rest) := by
    simp [keyPart?, Text.takeWhile_append bare.inside stops, bare.notEmpty]
  have parts : keyParts? [] (name ++ rest) = some ([String.ofList name], rest) := by
    rw [keyParts?, start]
    simp [part, single]
  have short : 1 ≤ maxNesting := by decide
  simp [key?, parts, Key.ofParts?, short]

/-! ### Statements -/

/-- The header of a table with a bare name. -/
theorem statement?_header (bare : BareName name) :
    statement? ('[' :: (name ++ ']' :: rest)) =
      some (.header ⟨[], String.ofList name⟩, rest) := by
  have key : key? (name ++ ']' :: rest) = some (⟨[], String.ofList name⟩, ']' :: rest) :=
    key?_bare bare (by simp; decide) rfl
  have oneBracket (text : List Char) : name ++ ']' :: rest ≠ '[' :: text := by
    obtain ⟨first, others, rfl, visible⟩ := bare.exists_cons
    simp_all
  have closed : skipBlanks (']' :: rest) = ']' :: rest := skipBlanks_cons (by decide) (by decide)
  rw [statement?, if_pos List.head?_cons, header?.eq_2 _ oneBracket, key]
  simp [closed, behind?]

/-- A bare name with a value. -/
theorem statement?_pair (bare : BareName name)
    (reads : value? maxNesting (written ++ rest) = some (value, rest))
    (starts : skipBlanks (written ++ rest) = written ++ rest) :
    statement? (name ++ (' ' :: '=' :: ' ' :: (written ++ rest))) =
      some (.pair ⟨[], String.ofList name⟩ value, rest) := by
  have key : key? (name ++ (' ' :: '=' :: ' ' :: (written ++ rest))) =
      some (⟨[], String.ofList name⟩, ' ' :: '=' :: ' ' :: (written ++ rest)) :=
    key?_bare bare (by simp; decide) rfl
  have notBracket : (name ++ (' ' :: '=' :: ' ' :: (written ++ rest))).head? ≠ some '[' := by
    obtain ⟨first, others, rfl, visible⟩ := bare.exists_cons
    simp_all
  have sign : behind? '=' (skipBlanks (' ' :: '=' :: ' ' :: (written ++ rest))) =
      some (' ' :: (written ++ rest)) := rfl
  have starts' : skipBlanks (' ' :: (written ++ rest)) = written ++ rest := starts
  rw [statement?, if_neg notBracket, pair?, key]
  simp [sign, starts', reads]

/-! ### Lines -/

/-- A line is empty, or it holds a statement whatever lines follow it. -/
inductive Line : List Char → Option Statement → Prop
  | empty : Line [] none
  | statement {first : Char} {others : List Char} {statement : Statement}
      (starts : first ∉ [' ', '\t', '\n', '\r', '#'])
      (reads : ∀ rest,
        statement? (first :: (others ++ '\n' :: rest)) = some (statement, '\n' :: rest)) :
      Line (first :: others) (some statement)

/-- Lines with their ends. -/
def joinLines (lines : List (List Char)) : List Char :=
  lines.flatMap (· ++ ['\n'])

/-- Nothing is skipped in front of a statement. -/
theorem skipTrivia_cons (starts : c ∉ [' ', '\t', '\n', '\r', '#']) :
    skipTrivia (c :: text) = c :: text := by
  rw [skipTrivia]
  all_goals simp_all

theorem skipTrivia_feeds (count : Nat) :
    skipTrivia (List.replicate count '\n' ++ text) = skipTrivia text := by
  induction count with
  | zero => rfl
  | succ count ih => rw [List.replicate_succ, List.cons_append, skipTrivia, ih]

/-- Lines are read one after the other, and empty ones in front of them do not matter. -/
theorem statementsFrom?_lines {lines : List (List Char)} {statements : List (Option Statement)}
    (holds : List.Forall₂ Line lines statements) (done : List Statement) (count : Nat) :
    statementsFrom? done (List.replicate count '\n' ++ joinLines lines) =
      some (done.reverse ++ statements.reduceOption) := by
  -- an empty line adds one to the line ends in front, and a statement leaves its own there
  induction holds generalizing done count with
  | nil =>
    rw [statementsFrom?, skipTrivia_feeds]
    simp [joinLines, skipTrivia]
  | @cons line _ lines statements first _ ih =>
    cases first with
    | empty =>
      have more : List.replicate count '\n' ++ joinLines ([] :: lines) =
          List.replicate (count + 1) '\n' ++ joinLines lines := by
        simp [joinLines, List.replicate_succ']
      rw [more, ih]
      rfl
    | @statement c others statement starts reads =>
      have text_eq : List.replicate count '\n' ++ joinLines ((c :: others) :: lines) =
          List.replicate count '\n' ++ c :: (others ++ '\n' :: joinLines lines) := by
        simp [joinLines]
      have start : skipTrivia (List.replicate count '\n' ++ joinLines ((c :: others) :: lines)) =
          c :: (others ++ '\n' :: joinLines lines) := by
        rw [text_eq, skipTrivia_feeds, skipTrivia_cons starts]
      have ends : statementEnd? ('\n' :: joinLines lines) = some ('\n' :: joinLines lines) := rfl
      have shorter : ('\n' :: joinLines lines).length <
          (List.replicate count '\n' ++ joinLines ((c :: others) :: lines)).length := by
        rw [text_eq]
        simp only [List.length_append, List.length_cons]
        omega
      have behind := ih (statement :: done) 1
      rw [List.replicate_one, List.singleton_append] at behind
      rw [statementsFrom?, start]
      simp only [reads, ends, if_pos shorter, behind, List.isEmpty_cons, Bool.false_eq_true,
        if_false, List.reverse_cons, List.append_assoc, List.singleton_append]
      rfl

/-- Without a byte order mark the statements are read from the beginning of the text. -/
theorem statements?_of_head?_ne (noMark : text.head? ≠ some '\uFEFF') :
    statements? text = statementsFrom? [] text := by
  unfold statements?
  split
  · exact absurd rfl noMark
  · rfl

/-- The statements of a document are those of its lines. -/
theorem statements?_lines {lines : List (List Char)} {statements : List (Option Statement)}
    (holds : List.Forall₂ Line lines statements)
    (noMark : (joinLines lines).head? ≠ some '\uFEFF') :
    statements? (joinLines lines) = some statements.reduceOption := by
  rw [statements?_of_head?_ne noMark]
  exact statementsFrom?_lines holds [] 0

/-! ### Lines that are written -/

/-- The header of a table on a line of its own. -/
theorem line_header (name : List Char) (bare : BareName name) :
    Line ('[' :: (name ++ [']'])) (some (.header ⟨[], String.ofList name⟩)) := by
  refine .statement (by decide) fun rest => ?_
  rw [List.append_assoc]
  exact statement?_header bare

/-- A bare name with a value that goes up to the end of the line. -/
theorem line_pair (bare : BareName name)
    (reads : ∀ rest,
      value? maxNesting (c :: (written ++ '\n' :: rest)) = some (value, '\n' :: rest))
    (notSpace : c ≠ ' ') (notTab : c ≠ '\t') :
    Line (name ++ (' ' :: '=' :: ' ' :: (c :: written)))
      (some (.pair ⟨[], String.ofList name⟩ value)) := by
  have whole (rest : List Char) :
      statement? (name ++ (' ' :: '=' :: ' ' :: (c :: written ++ '\n' :: rest))) =
        some (.pair ⟨[], String.ofList name⟩ value, '\n' :: rest) :=
    statement?_pair bare (reads rest) (skipBlanks_cons notSpace notTab)
  obtain ⟨first, others, rfl, visible⟩ := bare.exists_cons
  refine .statement (by simp_all) fun rest => ?_
  simpa using whole rest

/-- A character that opens no bracket begins a simple value. -/
theorem value?_cons (depth : Nat) (notBracket : c ≠ '[') (notBrace : c ≠ '{') :
    value? depth (c :: text) = simpleValue? (c :: text) := by
  cases depth with
  | zero => rfl
  | succ depth =>
    rw [value?]
    all_goals simp_all

/-- A name and a string. The string may have line ends of its own. -/
theorem line_string (name : List Char) (bare : BareName name) (text : String) :
    Line (name ++ (' ' :: '=' :: ' ' :: (quoted text).toList))
      (some (.pair ⟨[], String.ofList name⟩ (.string text))) := by
  have written : ∃ others, (quoted text).toList =
      (Quoting.suited text.toList).quote :: others := by
    rw [quoted, String.toList_ofList]
    cases Quoting.suited text.toList <;> exact ⟨_, rfl⟩
  obtain ⟨others, parts⟩ := written
  have visible : (Quoting.suited text.toList).quote ∉ [' ', '\t', '[', '{'] := by
    cases Quoting.suited text.toList <;> decide
  simp only [List.mem_cons, List.not_mem_nil, or_false, not_or] at visible
  obtain ⟨notSpace, notTab, notBracket, notBrace⟩ := visible
  rw [parts]
  refine line_pair bare (fun rest => ?_) notSpace notTab
  have read : string? ((quoted text).toList ++ '\n' :: rest) = some (text, '\n' :: rest) := by
    have stops (form : Quoting) : ('\n' :: rest).head? ≠ some form.quote := by
      cases form <;> simp [Quoting.quote]
    rw [quoted, String.toList_ofList, string?_write stops, String.ofList_toList]
  rw [parts, List.cons_append] at read
  rw [value?_cons _ notBracket notBrace, simpleValue?, read]

/-- A name and a truth value. -/
theorem line_truth (name : List Char) (bare : BareName name) (truth : Bool) :
    Line (name ++ (' ' :: '=' :: ' ' :: (truthKeyword truth).toList))
      (some (.pair ⟨[], String.ofList name⟩ (.boolean truth))) := by
  cases truth with
  | false => exact line_pair bare (fun _ => rfl) (by decide) (by decide)
  | true => exact line_pair bare (fun _ => rfl) (by decide) (by decide)

end SearchKeys.Toml
