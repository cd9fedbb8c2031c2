/-
# Files of a tree

What a tree tells about a path: whether a file lies at its end, and which bytes it holds. A file
that is new in a tree changes none of this for paths that led somewhere before.

## Main definitions

* `Tree.AgreeOn`: two trees have the same file at the end of a path, or none.
* `Tree.Vacant`: nothing lies at a place.

## Main results

* `Tree.isFile_iff`, `Tree.read_eq_ok_iff`: both in terms of what lies at the end of the path.
* `Tree.locate_same`: paths that are the same component by component lead to the same place.
* `Tree.Vacant.find_put`, `Tree.Vacant.find_of_put`: what a new file changes.
* `Tree.vacant_of_write`: a path at which nothing lies can be written by adding a file only.
-/

import SearchKeys.Files.Tree
import SearchKeys.Proofs.Files.Path

namespace SearchKeys.Tree

variable {tree first second : Tree} {path path' : Path} {place place' : List String}
  {contents contents' : List UInt8} {entry : Entry}

/-! ### What lies at the end of a path -/

/-- Something lies at the end of a path if the path leads to a place with something. -/
theorem find_eq_ok_iff : tree.find path = .ok entry ↔
    ∃ place, tree.locate path = .ok place ∧
      (if tree.isDirectory place then entry = .directory else tree.entry? place = some entry) := by
  unfold find
  rcases tree.locate path with cause | place
  · simp [bind, Except.bind]
  · simp only [bind, Except.bind, Except.ok.injEq, exists_eq_left']
    split_ifs
    · rw [Except.ok.injEq, eq_comm]
    · cases tree.entry? place <;> simp

theorem isFile_iff : tree.isFile path ↔ ∃ contents, tree.find path = .ok (.file contents) := by
  unfold isFile
  split <;> simp_all

theorem read_eq_ok_iff : tree.read path = .ok contents ↔ tree.find path = .ok (.file contents) := by
  unfold read
  rcases tree.find path with cause | (_ | bytes) <;> simp [bind, Except.bind]

theorem contains_iff : tree.contains path ↔ ∃ entry, tree.find path = .ok entry := by
  unfold contains
  split <;> simp_all

/-- A file lies at the end of a path exactly if it can be read as bytes. -/
theorem isFile_iff_read : tree.isFile path ↔ ∃ contents, tree.read path = .ok contents := by
  simp only [isFile_iff, read_eq_ok_iff]

theorem find_eq_file_iff : tree.find path = .ok (.file contents) ↔
    ∃ place, tree.locate path = .ok place ∧ tree.isDirectory place = false ∧
      tree.entry? place = some (.file contents) := by
  rw [find_eq_ok_iff]
  refine exists_congr fun place => and_congr_right fun _ => ?_
  split_ifs with isDirectory <;> simp [isDirectory]

/-! ### Trees that agree -/

/-- The same file lies at the end of a path in both trees, or a file in neither. -/
def AgreeOn (first second : Tree) (path : Path) : Prop :=
  ∀ contents, first.read path = .ok contents ↔ second.read path = .ok contents

theorem AgreeOn.isFile_eq (agree : first.AgreeOn second path) :
    first.isFile path = second.isFile path := by
  rw [Bool.eq_iff_iff, isFile_iff_read, isFile_iff_read]
  exact exists_congr agree

/-- Where a file lies, trees that agree read it alike. -/
theorem AgreeOn.read_eq (agree : first.AgreeOn second path) (isFile : first.isFile path) :
    first.read path = second.read path := by
  obtain ⟨contents, read⟩ := isFile_iff_read.1 isFile
  rw [read, (agree contents).1 read]

/-! ### Places -/

/-- A step that does not start at the root is taken in a directory. -/
theorem isDirectory_of_step {component : Path.Component} (notRoot : component ≠ .root)
    (leads : tree.step place component = .ok place') : tree.isDirectory place := by
  cases component with
  | root => exact absurd rfl notRoot
  | here | up | name =>
    by_contra notDirectory
    rw [Bool.not_eq_true] at notDirectory
    simp [step, notDirectory] at leads

theorem foldlM_cons_eq_ok_iff {component : Path.Component} {steps : List Path.Component} :
    (component :: steps).foldlM tree.step place = .ok place' ↔
      ∃ next, tree.step place component = .ok next ∧
        steps.foldlM tree.step next = .ok place' := by
  rw [List.foldlM_cons]
  cases tree.step place component <;> simp [bind, Except.bind]

/-- Steps that lead nowhere can be left out. -/
theorem foldlM_step_filter {steps : List Path.Component}
    (leads : steps.foldlM tree.step place = .ok place') :
    (steps.filter (· != .here)).foldlM tree.step place = .ok place' := by
  induction steps generalizing place with
  | nil => exact leads
  | cons component steps ih =>
    obtain ⟨next, taken, rest⟩ := foldlM_cons_eq_ok_iff.1 leads
    by_cases isHere : component = .here
    · -- the place is that of the step before
      subst isHere
      simp only [step] at taken
      split at taken
      · obtain rfl := Except.ok.inj taken
        simpa using ih rest
      · cases taken
    · rw [List.filter_cons_of_pos (by simpa using isHere)]
      exact foldlM_cons_eq_ok_iff.2 ⟨next, taken, ih rest⟩

theorem foldlM_of_locate (leads : tree.locate path = .ok place) :
    path.steps.foldlM tree.step [] = .ok place := by
  unfold locate follow at leads
  split_ifs at leads
  exact leads

/-- Paths that are the same component by component lead to the same place, if anywhere. -/
theorem locate_same (same : path.same path') (leads : tree.locate path = .ok place)
    (leads' : tree.locate path' = .ok place') : place = place' := by
  have steps := foldlM_step_filter (foldlM_of_locate leads)
  have steps' := foldlM_step_filter (foldlM_of_locate leads')
  rw [Path.filter_steps_eq same] at steps
  exact Except.ok.inj (steps.symm.trans steps')

/-! ### A new file -/

/-- Nothing lies at a place, and it is not the top of the tree. -/
structure Vacant (tree : Tree) (place : List String) : Prop where
  notTop : place ≠ []
  nothing : tree.entry? place = none

namespace Vacant

variable {component : Path.Component} {steps : List Path.Component} {start reached : List String}
variable (vacant : tree.Vacant place)
include vacant

theorem isDirectory_eq : tree.isDirectory place = false := by
  simp [isDirectory, vacant.notTop, vacant.nothing]

theorem isDirectory_put (other : List String) :
    (tree.put place (.file contents)).isDirectory other = tree.isDirectory other := by
  by_cases same : other = place
  · simp [isDirectory, put, same, vacant.notTop, vacant.nothing]
  · simp [isDirectory, put, same]

/-- A step that can be taken is the same with a new file. -/
theorem step_put (leads : tree.step start component = .ok reached) :
    (tree.put place (.file contents)).step start component = .ok reached := by
  cases component with
  | root => exact leads
  | here | up => simpa only [step, vacant.isDirectory_put] using leads
  | name text =>
    simp only [step, vacant.isDirectory_put] at leads ⊢
    split_ifs at leads with notDirectory tooLong present
    have notPlace : text :: start ≠ place := by
      rintro rfl
      simp [vacant.nothing] at present
    simpa [notDirectory, tooLong, put, notPlace, present] using leads

/-- With a new file a step leads to this file or where it led before. -/
theorem step_of_put (leads : (tree.put place (.file contents)).step start component = .ok reached) :
    reached = place ∨ tree.step start component = .ok reached := by
  cases component with
  | root => exact .inr leads
  | here | up => exact .inr (by simpa only [step, vacant.isDirectory_put] using leads)
  | name text =>
    simp only [step, vacant.isDirectory_put] at leads ⊢
    split_ifs at leads with notDirectory tooLong present
    obtain rfl := Except.ok.inj leads
    refine or_iff_not_imp_left.2 fun notPlace => ?_
    have presentBefore : (tree.entry? (text :: start)).isSome := by
      simpa [put, notPlace] using present
    simp [notDirectory, tooLong, presentBefore]

theorem foldlM_put (leads : steps.foldlM tree.step start = .ok reached) :
    steps.foldlM (tree.put place (.file contents)).step start = .ok reached := by
  induction steps generalizing start with
  | nil => exact leads
  | cons component steps ih =>
    obtain ⟨next, taken, rest⟩ := foldlM_cons_eq_ok_iff.1 leads
    exact foldlM_cons_eq_ok_iff.2 ⟨next, vacant.step_put taken, ih rest⟩

/-- With a new file steps lead to this file or where they led before, because no step goes on from
a file. -/
theorem foldlM_of_put (notRoot : .root ∉ steps.tail)
    (leads : steps.foldlM (tree.put place (.file contents)).step start = .ok reached) :
    reached = place ∨ steps.foldlM tree.step start = .ok reached := by
  induction steps generalizing start with
  | nil => exact .inr leads
  | cons component steps ih =>
    obtain ⟨next, taken, rest⟩ := foldlM_cons_eq_ok_iff.1 leads
    rcases vacant.step_of_put taken with rfl | takenBefore
    · cases steps with
      | nil => exact .inl (Except.ok.inj rest).symm
      | cons component' steps =>
        obtain ⟨_, takenThere, _⟩ := foldlM_cons_eq_ok_iff.1 rest
        have isDirectory := isDirectory_of_step (by rintro rfl; simp at notRoot) takenThere
        rw [vacant.isDirectory_put, vacant.isDirectory_eq] at isDirectory
        cases isDirectory
    · rcases ih (fun member => notRoot (List.mem_of_mem_tail member)) rest with atFile | before
      · exact .inl atFile
      · exact .inr (foldlM_cons_eq_ok_iff.2 ⟨next, takenBefore, before⟩)

theorem locate_put (leads : tree.locate path = .ok reached) :
    (tree.put place (.file contents)).locate path = .ok reached := by
  unfold locate follow at leads ⊢
  split_ifs at leads ⊢
  exact vacant.foldlM_put leads

theorem locate_of_put (leads : (tree.put place (.file contents)).locate path = .ok reached) :
    reached = place ∨ tree.locate path = .ok reached := by
  unfold locate follow at leads ⊢
  split_ifs at leads ⊢
  exact vacant.foldlM_of_put path.root_notMem_tail_steps leads

/-- What lies at the end of a path stays what it is. -/
theorem find_put (found : tree.find path = .ok entry) :
    (tree.put place (.file contents)).find path = .ok entry := by
  obtain ⟨place', leads, lies⟩ := find_eq_ok_iff.1 found
  refine find_eq_ok_iff.2 ⟨place', vacant.locate_put leads, ?_⟩
  rw [vacant.isDirectory_put]
  split_ifs at lies ⊢
  · exact lies
  · have notPlace : place' ≠ place := by
      rintro rfl
      simp [vacant.nothing] at lies
    simpa [put, notPlace] using lies

/-- What lies at the end of a path is the new file or lay there before. -/
theorem find_of_put (found : (tree.put place (.file contents)).find path = .ok entry) :
    entry = .file contents ∨ tree.find path = .ok entry := by
  obtain ⟨place', leads, lies⟩ := find_eq_ok_iff.1 found
  rw [vacant.isDirectory_put] at lies
  by_cases atFile : place' = place
  · left
    simpa [atFile, vacant.isDirectory_eq, put, eq_comm] using lies
  · right
    have before := (vacant.locate_of_put leads).resolve_left atFile
    exact find_eq_ok_iff.2 ⟨place', before, by simpa [put, atFile] using lies⟩

/-- Where a file lay before, the trees agree. -/
theorem agreeOn_put (isFile : tree.isFile path) :
    tree.AgreeOn (tree.put place (.file contents)) path := by
  obtain ⟨bytes, found⟩ := isFile_iff.1 isFile
  intro other
  rw [read_eq_ok_iff, read_eq_ok_iff, found, vacant.find_put found]

/-- A file that was not there before is the new one. -/
theorem read_put_of_isFile (notBefore : tree.isFile path = false)
    (isFile : (tree.put place (.file contents)).isFile path) :
    (tree.put place (.file contents)).read path = .ok contents := by
  obtain ⟨bytes, found⟩ := isFile_iff.1 isFile
  rcases vacant.find_of_put found with new | before
  · rw [read_eq_ok_iff, found, new]
  · simp [isFile_iff.2 ⟨bytes, before⟩] at notBefore

/-- A path that is the same as that of a file led to this file before there was a new one. -/
theorem isFile_of_same (isFile : tree.isFile path) (same : path.same path')
    (isFile' : (tree.put place (.file contents)).isFile path') : tree.isFile path' := by
  obtain ⟨bytes, found⟩ := isFile_iff.1 isFile
  obtain ⟨bytes', found'⟩ := isFile_iff.1 isFile'
  obtain ⟨old, leads, notDirectory, lies⟩ := find_eq_file_iff.1 found
  obtain ⟨reached, leads', _⟩ := find_eq_file_iff.1 found'
  obtain rfl : old = reached := locate_same same (vacant.locate_put leads) leads'
  have notPlace : old ≠ place := by
    rintro rfl
    simp [vacant.nothing] at lies
  have before := (vacant.locate_of_put leads').resolve_left notPlace
  exact isFile_iff.2 ⟨bytes, find_eq_file_iff.2 ⟨old, before, notDirectory, lies⟩⟩

end Vacant

/-! ### Writing -/

/-- A file is written in a directory, under the name that the path ends with. -/
theorem write_eq_ok_iff {after : Tree} : tree.write path contents = .ok after ↔
    ∃ directory name, tree.follow path path.steps.dropLast = .ok directory ∧
      path.steps.getLast? = some (.name name) ∧ tree.isDirectory directory ∧
      name.utf8ByteSize ≤ maxNameSize ∧ tree.isDirectory (name :: directory) = false ∧
      after = tree.put (name :: directory) (.file contents) := by
  unfold write placeFor
  cases tree.follow path path.steps.dropLast with
  | error cause => simp [bind, Except.bind]
  | ok directory =>
    rcases path.steps.getLast? with _ | _ | _ | _ | name
    on_goal 5 =>
      simp only [bind, Except.bind, Except.ok.injEq, exists_and_left, exists_eq_left',
        Option.some.injEq, Path.Component.name.injEq]
      split_ifs with notDirectory tooLong taken
      · simp_all
      · exact iff_of_false (by simp) fun ⟨_, short, _⟩ => Nat.not_lt.2 short tooLong
      · simp_all
      · rw [Except.ok.injEq, eq_comm]
        simp_all
    all_goals simp [bind, Except.bind]

/-- A path at whose end nothing lies is written by adding a file in a directory. -/
theorem vacant_of_write {after : Tree} (nothing : tree.contains path = false)
    (written : tree.write path contents = .ok after) :
    ∃ directory name, path.steps.getLast? = some (.name name) ∧ tree.isDirectory directory ∧
      tree.Vacant (name :: directory) ∧ after = tree.put (name :: directory) (.file contents) := by
  obtain ⟨directory, name, leads, ends, isDirectory, short, notDirectory, rfl⟩ :=
    write_eq_ok_iff.1 written
  refine ⟨directory, name, ends, isDirectory, ⟨by simp, ?_⟩, rfl⟩
  -- if there were something, the path would lead to it
  by_contra present
  obtain ⟨entry, lies⟩ := Option.ne_none_iff_exists'.1 present
  have steps : path.steps = path.steps.dropLast ++ [.name name] := by
    obtain ⟨front, parts⟩ := List.getLast?_eq_some_iff.1 ends
    simp [parts]
  have leadsThere : tree.locate path = .ok (name :: directory) := by
    unfold locate follow at *
    split_ifs at leads ⊢
    rw [steps, List.foldlM_append, leads]
    simp [bind, Except.bind, step, isDirectory, Nat.not_lt.2 short, lies, pure, Except.pure]
  have found : tree.find path = .ok entry :=
    find_eq_ok_iff.2 ⟨_, leadsThere, by simpa [notDirectory] using lies⟩
  rw [Bool.eq_false_iff] at nothing
  exact nothing (contains_iff.2 ⟨entry, found⟩)

end SearchKeys.Tree
