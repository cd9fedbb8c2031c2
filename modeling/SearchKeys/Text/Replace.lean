/-
# Replacing a pattern

A pattern in a text is replaced wherever it occurs, from the front to the back. Occurrences do not
overlap, and what is put in is not searched again.

## Main definitions

* `Text.replace`: a text with a replacement for each occurrence of a pattern.

## Main results

* `Text.mem_of_mem_replace`: where the characters of the result come from.
* `Text.replace_once`: the result if the pattern occurs once.
-/

namespace SearchKeys.Text

variable {c first : Char} {pattern replacement text others before after : List Char}
  {skipped : Nat}

/-- The text with a replacement for each occurrence of the pattern behind the characters that are
skipped, which belong to an occurrence further in front. An empty pattern does not occur. -/
def replaceBehind (pattern replacement : List Char) : Nat → List Char → List Char
  | _, [] => []
  | skipped + 1, _ :: rest => replaceBehind pattern replacement skipped rest
  | 0, c :: rest =>
    if !pattern.isEmpty && pattern.isPrefixOf (c :: rest) then
      replacement ++ replaceBehind pattern replacement (pattern.length - 1) rest
    else c :: replaceBehind pattern replacement 0 rest

/-- The text with a replacement for each occurrence of the pattern. -/
def replace (pattern replacement text : List Char) : List Char :=
  replaceBehind pattern replacement 0 text

theorem mem_of_mem_replaceBehind (inside : c ∈ replaceBehind pattern replacement skipped text) :
    c ∈ text ∨ c ∈ replacement := by
  induction text generalizing skipped with
  | nil => simp [replaceBehind] at inside
  | cons d rest ih =>
    cases skipped with
    | succ skipped => exact (ih inside).imp_left (List.mem_cons_of_mem d)
    | zero =>
      rw [replaceBehind] at inside
      split at inside
      · -- an occurrence gives way to the replacement, and the rest of it is skipped
        rcases List.mem_append.1 inside with new | later
        · exact .inr new
        · exact (ih later).imp_left (List.mem_cons_of_mem d)
      · rcases List.mem_cons.1 inside with rfl | later
        · exact .inl (.head _)
        · exact (ih later).imp_left (List.mem_cons_of_mem d)

/-- A character of the result is one of the text or one of the replacement. -/
theorem mem_of_mem_replace (inside : c ∈ replace pattern replacement text) :
    c ∈ text ∨ c ∈ replacement :=
  mem_of_mem_replaceBehind inside

/-- Nothing is replaced where the first character of the pattern does not occur. -/
theorem replaceBehind_append (absent : first ∉ before) (rest : List Char) :
    replaceBehind (first :: others) replacement 0 (before ++ rest) =
      before ++ replaceBehind (first :: others) replacement 0 rest := by
  induction before with
  | nil => rfl
  | cons c before ih =>
    obtain ⟨differs, absent⟩ : first ≠ c ∧ first ∉ before := by simpa using absent
    rw [List.cons_append, replaceBehind, ih absent]
    simp [differs]

theorem replaceBehind_skipped (skipped rest : List Char) :
    replaceBehind pattern replacement skipped.length (skipped ++ rest) =
      replaceBehind pattern replacement 0 rest := by
  induction skipped with
  | nil => rfl
  | cons c skipped ih => exact ih

/-- A pattern that occurs once gives way to the replacement, whatever that is. -/
theorem replace_once (notBefore : first ∉ before) (notAfter : first ∉ after) :
    replace (first :: others) replacement (before ++ first :: others ++ after) =
      before ++ replacement ++ after := by
  have occurs : (first :: others).isPrefixOf (first :: (others ++ after)) := by
    simp [List.isPrefixOf_iff_prefix]
  have behind : replaceBehind (first :: others) replacement 0 after = after := by
    simpa [replaceBehind] using replaceBehind_append notAfter []
  rw [replace, List.append_assoc, replaceBehind_append notBefore, List.cons_append, replaceBehind,
    occurs, List.length_cons, Nat.add_sub_cancel, replaceBehind_skipped, behind]
  simp

/-- An occurrence that is put in stays as it is. -/
example : replace "aa".toList "-aa-".toList "aaab aa".toList = "-aa-ab -aa-".toList := by
  decide

end SearchKeys.Text
