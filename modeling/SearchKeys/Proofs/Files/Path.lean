/-
# Steps along a path

A path starts at the root at most once, with its first step, and a path in a directory ends with
the name that was put there. Paths that are the same component by component differ only in steps
that lead nowhere.

## Main results

* `Path.root_notMem_tail_steps`: no step but the first one leads to the root.
* `Path.getLast?_steps_join`: the last step of a path in a directory.
* `Path.filter_steps`: the steps that lead somewhere are told by the components.
-/

import SearchKeys.Files.Path
import Mathlib.Data.List.Basic

namespace SearchKeys.Path

variable {path first second : Path}

theorem Component.ofPiece_ne_root (piece : List Char) : Component.ofPiece piece ≠ root := by
  unfold Component.ofPiece
  split_ifs <;> simp

/-- No step but the first one leads to the root. -/
theorem root_notMem_tail_steps (path : Path) : .root ∉ path.steps.tail := by
  have pieces : Component.root ∉ path.layout.2.map Component.ofPiece := by
    intro member
    obtain ⟨piece, _, isRoot⟩ := List.mem_map.1 member
    exact Component.ofPiece_ne_root piece isRoot
  rw [steps]
  cases path.layout.1 with
  | root => exact pieces
  | here => exact pieces
  | unmarked => exact fun member => pieces (List.mem_of_mem_tail member)

/-- The steps that lead somewhere are the components that do. -/
theorem filter_steps (path : Path) :
    path.steps.filter (· != .here) = path.components.filter (· != .here) := by
  simp [steps, components, List.filter_filter]

theorem filter_steps_eq (same : first.same second) :
    first.steps.filter (· != .here) = second.steps.filter (· != .here) := by
  rw [filter_steps, filter_steps, eq_of_beq same]

/-! ### A name in a directory -/

section Join

variable {name text : List Char}

/-- The last piece of a text is what stands behind its last slash. -/
private theorem getLast?_splitOnP (notSlash : '/' ∉ name)
    (ends : text = name ∨ ∃ parent, text = parent ++ '/' :: name) :
    (text.splitOnP (· == '/')).getLast? = some name := by
  have single : name.splitOnP (· == '/') = [name] :=
    List.splitOnP_eq_singleton fun c member => by
      simpa using fun isSlash : c = '/' => notSlash (isSlash ▸ member)
  rcases ends with rfl | ⟨parent, rfl⟩
  · simp [single]
  · rw [List.splitOnP_append_cons _ _ rfl, single, List.getLast?_concat]

/-- The last piece of a path is what stands behind its last slash, unless this is all there is of
the path and it is a point. -/
private theorem getLast?_layout (notSlash : '/' ∉ name) (notPoint : name ≠ ['.'])
    (ends : path.text.toList = name ∨ ∃ parent, path.text.toList = parent ++ '/' :: name) :
    path.layout.2.getLast? = some name := by
  unfold layout
  -- each start of a path leaves a text that still ends with the name
  split
  · next rest isRoot =>
    refine getLast?_splitOnP notSlash ?_
    rcases ends with ends | ⟨_ | ⟨c, parent⟩, ends⟩ <;> rw [isRoot] at ends
    · simp [← ends] at notSlash
    · exact .inl (List.cons.inj ends).2
    · exact .inr ⟨parent, (List.cons.inj ends).2⟩
  · next isPoint =>
    rcases ends with ends | ⟨_ | ⟨c, parent⟩, ends⟩ <;> rw [isPoint] at ends
    · exact absurd ends.symm notPoint
    · simp at ends
    · simp at ends
  · next rest isHere =>
    refine getLast?_splitOnP notSlash ?_
    rcases ends with ends | ⟨_ | ⟨c, _ | ⟨d, parent⟩⟩, ends⟩ <;> rw [isHere] at ends
    · simp [← ends] at notSlash
    · simp at ends
    · exact .inl (List.cons.inj (List.cons.inj ends).2).2
    · exact .inr ⟨parent, (List.cons.inj (List.cons.inj ends).2).2⟩
  · exact getLast?_splitOnP notSlash ends

/-- The last step of a path in a directory is the name that was put there. -/
theorem getLast?_steps_join (directory : Path) {name : String} (notSlash : '/' ∉ name.toList)
    (notPoint : name.toList ≠ ['.']) :
    (directory.join name).steps.getLast? = some (.ofPiece name.toList) := by
  have ends : (directory.join name).text.toList = name.toList ∨
      ∃ parent, (directory.join name).text.toList = parent ++ '/' :: name.toList := by
    simp only [join, String.toList_append]
    split_ifs with noSeparator
    · rcases List.eq_nil_or_concat directory.text.toList with empty | ⟨parent, last, parts⟩
      · exact .inl (by simp [empty])
      · refine .inr ⟨parent, ?_⟩
        obtain rfl : last = '/' := by simpa [parts] using noSeparator
        simp [parts]
    · exact .inr ⟨directory.text.toList, by simp⟩
  obtain ⟨front, pieces⟩ := List.getLast?_eq_some_iff.1 (getLast?_layout notSlash notPoint ends)
  rw [steps, pieces, List.map_append, List.map_singleton, ← List.append_assoc,
    List.getLast?_concat]

end Join

end SearchKeys.Path
