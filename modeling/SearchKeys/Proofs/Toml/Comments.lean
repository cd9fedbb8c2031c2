/-
# Documents of comments

Lines with comments alone say nothing: a document with no others has no statements.

## Main definitions

* `Toml.Remark`: a line that is empty or holds a comment.

## Main results

* `Toml.skipTrivia_joinLines`: such lines are skipped.
* `Toml.document?_of_remarks`: a document of such lines is an empty table.
-/

import SearchKeys.Proofs.Toml.Statements

namespace SearchKeys.Toml

variable {line rest : List Char} {lines : List (List Char)}

/-- A line that is empty, or holds a comment and nothing else. -/
inductive Remark : List Char → Prop
  | empty : Remark []
  | comment {text : List Char} (plain : ∀ c ∈ text, isPlain c) : Remark ('#' :: text)

theorem skipTrivia_remark (remark : Remark line) (rest : List Char) :
    skipTrivia (line ++ '\n' :: rest) = skipTrivia rest := by
  cases remark with
  | empty => rw [List.nil_append, skipTrivia]
  | @comment text plain =>
    -- a comment ends in front of the line feed
    have behind : (text ++ '\n' :: rest).dropWhile isPlain = '\n' :: rest :=
      Text.dropWhile_append plain (by simp; decide)
    rw [List.cons_append, skipTrivia, behind, skipTrivia]

/-- Lines with comments alone are skipped. -/
theorem skipTrivia_joinLines (remarks : ∀ line ∈ lines, Remark line) :
    skipTrivia (joinLines lines) = [] := by
  induction lines with
  | nil => simp [joinLines, skipTrivia]
  | cons line lines ih =>
    obtain ⟨first, others⟩ := List.forall_mem_cons.1 remarks
    have parts : joinLines (line :: lines) = line ++ '\n' :: joinLines lines := by
      simp [joinLines]
    rw [parts, skipTrivia_remark first, ih others]

/-- A document of comments is an empty table. -/
theorem document?_of_remarks (remarks : ∀ line ∈ lines, Remark line) :
    document? (joinLines lines) = some [] := by
  have noMark : (joinLines lines).head? ≠ some '\uFEFF' := by
    cases lines with
    | nil => simp [joinLines]
    | cons line lines => cases remarks line (.head _) <;> simp [joinLines]
  have noStatements : statementsFrom? [] (joinLines lines) = some [] := by
    rw [statementsFrom?, skipTrivia_joinLines remarks]
    rfl
  rw [document?, statements?_of_head?_ne noMark, noStatements]
  rfl

end SearchKeys.Toml
