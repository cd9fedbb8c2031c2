/-
# Dictionaries

A dictionary maps texts to values. It is a list of pairs in increasing order of the texts, so
listing it gives the order of their characters.

## Main definitions

* `Dictionary.insert`: puts a value at the place of its key.

## Main results

* `Dictionary.lookup_insert`: what is found under a key after an insertion.
-/

namespace SearchKeys.Dictionary

variable {α : Type}

/-- Puts a value at the place of its key. It replaces an earlier value of the key. -/
def insert (key : String) (value : α) : List (String × α) → List (String × α)
  | [] => [(key, value)]
  | entry :: rest =>
    if key < entry.1 then (key, value) :: entry :: rest
    else if key = entry.1 then (key, value) :: rest
    else entry :: insert key value rest

/-- A key that is less than the first one is put in front. -/
theorem insert_cons_of_lt {key first : String} (before : key < first) (value previous : α)
    (rest : List (String × α)) :
    insert key value ((first, previous) :: rest) = (key, value) :: (first, previous) :: rest :=
  if_pos before

/-- A key that is the first one already gets the new value. -/
theorem insert_cons_self (key : String) (value previous : α) (rest : List (String × α)) :
    insert key value ((key, previous) :: rest) = (key, value) :: rest := by
  rw [insert, if_neg (String.lt_irrefl key), if_pos rfl]

/-- What is found under a key in front of the other entries. -/
theorem lookup_cons (key : String) (value : α) (rest : List (String × α)) (other : String) :
    ((key, value) :: rest).lookup other =
      if other = key then some value else rest.lookup other := by
  by_cases same : other = key
  · simp [same]
  · simp [List.lookup_cons, same, beq_false_of_ne same]

/-- After an insertion the key has the new value, and every other key has what it had. -/
theorem lookup_insert (key other : String) (value : α) (entries : List (String × α)) :
    (insert key value entries).lookup other =
      if other = key then some value else entries.lookup other := by
  induction entries with
  | nil => rw [insert, lookup_cons]
  | cons entry rest ih =>
    obtain ⟨head, previous⟩ := entry
    rw [insert]
    split
    · -- the new entry stands in front of all others
      rw [lookup_cons]
    · split
      · -- the new entry replaces the first one, which has the same key
        rename_i same
        rw [lookup_cons, lookup_cons, same]
        split <;> rfl
      · -- the first entry stays and is not that of the key
        rename_i different
        rw [lookup_cons, lookup_cons, ih]
        by_cases found : other = head
        · have : ¬ other = key := fun same => different (same ▸ found)
          rw [if_pos found, if_neg this, if_pos found]
        · rw [if_neg found, if_neg found]

end SearchKeys.Dictionary
