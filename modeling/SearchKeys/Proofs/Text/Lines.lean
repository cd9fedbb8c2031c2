/-
# The characters of lines

The lines of a text are made of characters of the text, and no line feed is among them. Lines that
are joined by line feeds are read back, up to a carriage return at the end of one.

## Main results

* `Text.mem_of_mem_lines`: a character of a line is one of the text.
* `Text.feed_notMem_lines`: no line contains a line feed.
* `Text.exists_prefix_of_mem_lines`: a line of joined lines is one of them or its beginning.
-/

import SearchKeys.Text.Lines
import Mathlib.Data.List.Basic

namespace SearchKeys.Text

variable {c : Char} {piece line text : List Char} {joined : List (List Char)}

theorem chomp_subset (piece : List Char) : chomp piece ⊆ piece := by
  unfold chomp
  split
  · next rest ends =>
    rw [← List.reverse_reverse piece, ends]
    simp
  · next rest _ ends =>
    rw [← List.reverse_reverse piece, ends]
    simp
  · exact List.Subset.refl piece

theorem feed_notMem_dropLast (member : piece ∈ pieces text) : '\n' ∉ piece.dropLast := by
  induction text generalizing piece with
  | nil => cases member
  | cons c text ih =>
    change piece ∈ addToPieces c (pieces text) at member
    cases parts : pieces text with
    | nil => simp_all [addToPieces]
    | cons first others =>
      rw [parts] at member ih
      by_cases feed : c = '\n'
      · rw [addToPieces, if_pos feed] at member
        rcases List.mem_cons.1 member with rfl | member
        · simp
        · exact ih member
      · rw [addToPieces, if_neg feed] at member
        rcases List.mem_cons.1 member with rfl | member
        · cases first with
          | nil => simp
          | cons second rest =>
            simpa [Ne.symm feed] using ih (.head _)
        · exact ih (.tail _ member)

/-- A line feed at the end of a line is taken off. -/
theorem feed_notMem_chomp (inside : '\n' ∉ piece.dropLast) : '\n' ∉ chomp piece := by
  unfold chomp
  split
  · next rest ends =>
    rw [← List.reverse_reverse piece, ends] at inside
    simp_all
  · next rest _ ends =>
    rw [← List.reverse_reverse piece, ends] at inside
    simp_all
  · next _ noFeed =>
    -- the last character is no line feed either
    rcases List.eq_nil_or_concat piece with rfl | ⟨front, last, rfl⟩
    · simp
    · have lastNoFeed : '\n' ≠ last := by
        rintro rfl
        exact noFeed front.reverse (by simp)
      simp_all

theorem mem_of_mem_lines (member : line ∈ lines text) (inside : c ∈ line) : c ∈ text := by
  obtain ⟨piece, among, rfl⟩ := List.mem_map.1 member
  rw [← flatten_pieces text]
  exact List.mem_flatten.2 ⟨piece, among, chomp_subset piece inside⟩

theorem feed_notMem_lines (member : line ∈ lines text) : '\n' ∉ line := by
  obtain ⟨piece, among, rfl⟩ := List.mem_map.1 member
  exact feed_notMem_chomp (feed_notMem_dropLast among)

/-! ### Joined lines -/

/-- A line feed ends the first piece. -/
theorem pieces_line (noFeed : '\n' ∉ line) (rest : List Char) :
    pieces (line ++ '\n' :: rest) = (line ++ ['\n']) :: pieces rest := by
  induction line with
  | nil =>
    change addToPieces '\n' (pieces rest) = ['\n'] :: pieces rest
    cases pieces rest <;> simp [addToPieces]
  | cons c line ih =>
    obtain ⟨notFeed, noFeed⟩ : c ≠ '\n' ∧ '\n' ∉ line := by simpa [eq_comm] using noFeed
    change addToPieces c (pieces (line ++ '\n' :: rest)) = _
    rw [ih noFeed, addToPieces, if_neg notFeed, List.cons_append]

/-- The pieces of joined lines are the lines with their line feeds. -/
theorem pieces_flatMap (noFeed : ∀ line ∈ joined, '\n' ∉ line) :
    pieces (joined.flatMap (· ++ ['\n'])) = joined.map (· ++ ['\n']) := by
  induction joined with
  | nil => rfl
  | cons line joined ih =>
    obtain ⟨here, later⟩ := List.forall_mem_cons.1 noFeed
    rw [List.flatMap_cons, List.append_assoc, List.singleton_append, pieces_line here, ih later,
      List.map_cons]

/-- The end of a line is the line feed alone or with a carriage return before it. -/
theorem chomp_concat_prefix (line : List Char) : chomp (line ++ ['\n']) <+: line := by
  have ends : (line ++ ['\n']).reverse = '\n' :: line.reverse := by simp
  rw [chomp, ends]
  split
  · next rest carriage =>
    have line_eq : rest.reverse ++ ['\r'] = line := by
      rw [← List.reverse_cons, ← (List.cons.inj carriage).2, List.reverse_reverse]
    exact ⟨['\r'], line_eq⟩
  · next rest _ feed =>
    have line_eq : rest.reverse = line := by
      rw [← (List.cons.inj feed).2, List.reverse_reverse]
    exact line_eq ▸ List.prefix_refl rest.reverse
  · next noFeed => exact absurd rfl (noFeed _)

/-- A line of joined lines is one of them, or what is in front of a carriage return at its end. -/
theorem exists_prefix_of_mem_lines (noFeed : ∀ line ∈ joined, '\n' ∉ line)
    (member : line ∈ lines (joined.flatMap (· ++ ['\n']))) : ∃ whole ∈ joined, line <+: whole := by
  rw [lines, pieces_flatMap noFeed, List.map_map] at member
  obtain ⟨whole, among, rfl⟩ := List.mem_map.1 member
  exact ⟨whole, among, chomp_concat_prefix whole⟩

end SearchKeys.Text
