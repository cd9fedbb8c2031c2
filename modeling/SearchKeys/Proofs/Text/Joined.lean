/-
# Joined texts

Where texts are joined, every one but the first stands behind a separator. Where items are written
one after the other up to a mark that ends them, they are told if each of them is read back.
-/

import Mathlib.Data.List.Basic

namespace SearchKeys

/-- Where lists are joined, every one but the first stands behind a separator. -/
theorem intercalate_cons {α : Type} (separator first : List α) (others : List (List α)) :
    separator.intercalate (first :: others) = first ++ others.flatMap (separator ++ ·) := by
  induction others generalizing first with
  | nil => simp
  | cons second others ih => simp [ih]

/-- Where texts are joined, every one but the first stands behind a separator. -/
theorem toList_intercalate_cons (separator first : String) (others : List String) :
    (separator.intercalate (first :: others)).toList =
      first.toList ++ others.flatMap fun text => separator.toList ++ text.toList := by
  rw [String.toList_intercalate, List.map_cons, intercalate_cons, List.flatMap_map]

/-- Items are told by a text that begins with them and goes on with the mark that ends them. -/
theorem flatMap_append_inj {α β : Type} {write : α → List β} {read? : List β → Option (α × List β)}
    {mark : β} (reads : ∀ item rest, read? (write item ++ rest) = some (item, rest))
    (ends : ∀ rest, read? (mark :: rest) = none) {first second : List α} {s t : List β}
    (same : first.flatMap write ++ mark :: s = second.flatMap write ++ mark :: t) :
    first = second ∧ s = t := by
  have read := congrArg read? same
  induction first generalizing second with
  | nil =>
    cases second with
    | nil => simpa using same
    | cons item second => simp [List.append_assoc, reads, ends] at read
  | cons item first ih =>
    rw [List.flatMap_cons, List.append_assoc, reads] at read
    cases second with
    | nil => simp [ends] at read
    | cons other second =>
      rw [List.flatMap_cons, List.append_assoc, reads] at read
      simp only [Option.some.injEq, Prod.mk.injEq] at read
      obtain ⟨rfl, rest⟩ := read
      obtain ⟨rfl, sameRest⟩ := ih rest (congrArg read? rest)
      exact ⟨rfl, sameRest⟩

end SearchKeys
