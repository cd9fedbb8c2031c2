/-
# What discovery depends on

Looking for configuration files looks at the directories on the way up, and no further than at the
first file that says it is the last one. What lies above it, and the file of the home directory,
do not matter then.

## Main results

* `Settings.mem_walk`, `Settings.walk_congr`, `Settings.walk_append`: the files that are found on
  the way up, and the directories that they depend on.
* `Settings.loadFiles_congr`: the settings from given files depend on these files alone.
* `Settings.load_eq_of_isRoot`: a file that says it is the last one settles the settings of all
  directories below it, together with the files in between.
-/

import Mathlib
import SearchKeys.Proofs.Files.Tree
import SearchKeys.Proofs.Text.Utf8
import SearchKeys.Settings.Discovery

namespace SearchKeys

variable {tree first second : Tree} {home : Option Path} {path top : Path}
  {directories below above : List Path}

/-! ### One configuration file -/

theorem Tree.AgreeOn.load_eq (agree : first.AgreeOn second path) (isFile : first.isFile path) :
    SettingsFile.load first path = SettingsFile.load second path := by
  rw [SettingsFile.load, SettingsFile.load, readText, readText, agree.read_eq isFile]

theorem Tree.AgreeOn.isRoot_eq (agree : first.AgreeOn second path) (isFile : first.isFile path) :
    SettingsFile.isRoot first path = SettingsFile.isRoot second path := by
  rw [SettingsFile.isRoot, SettingsFile.isRoot, agree.load_eq isFile]

/-- Only a file can say that it is the last one. -/
theorem SettingsFile.isFile_of_isRoot (ends : SettingsFile.isRoot tree path) :
    tree.isFile path := by
  by_contra notFile
  cases read : tree.read path with
  | ok contents => exact notFile (Tree.isFile_iff_read.2 ⟨contents, read⟩)
  | error cause =>
    simp [isRoot, load, Tree.readText, read, bind, Except.bind] at ends

namespace Settings

theorem isGlobal_iff_same {global : Path} (known : globalPath? home = some global) :
    isGlobal home path ↔ global.same path := by
  rw [isGlobal, known, Option.any_some]
  exact ⟨BEq.symm, BEq.symm⟩

/-- The path of a configuration file ends with its name. -/
theorem getLast?_steps_pathIn (directory : Path) :
    (pathIn directory).steps.getLast? = some (.name fileName) :=
  Path.getLast?_steps_join directory (by decide) (by decide)

/-! ### The way up -/

/-- What is found on the way up are files, each in one of the directories. -/
theorem mem_walk (found : path ∈ (walk tree directories).1) :
    ∃ directory ∈ directories, path = pathIn directory ∧ tree.isFile path := by
  induction directories with
  | nil => simp [walk] at found
  | cons directory above ih =>
    rw [walk] at found
    split at found
    · next isFile =>
      split at found
      · obtain rfl := List.mem_singleton.1 found
        exact ⟨directory, .head _, rfl, isFile⟩
      · rcases List.mem_cons.1 found with rfl | later
        · exact ⟨directory, .head _, rfl, isFile⟩
        · obtain ⟨further, member, rest⟩ := ih later
          exact ⟨further, .tail _ member, rest⟩
    · obtain ⟨further, member, rest⟩ := ih found
      exact ⟨further, .tail _ member, rest⟩

theorem isFile_of_mem_walk (found : path ∈ (walk tree directories).1) : tree.isFile path := by
  obtain ⟨_, _, _, isFile⟩ := mem_walk found
  exact isFile

/-- Trees that agree on the files of the directories let the same be found in them. -/
theorem walk_congr (agree : ∀ directory ∈ directories, first.AgreeOn second (pathIn directory)) :
    walk first directories = walk second directories := by
  induction directories with
  | nil => rfl
  | cons directory above ih =>
    obtain ⟨here, later⟩ := List.forall_mem_cons.1 agree
    rw [walk, walk, ih later, ← here.isFile_eq]
    by_cases isFile : first.isFile (pathIn directory)
    · simp only [isFile, if_true, here.isRoot_eq isFile]
    · simp only [isFile, if_false, Bool.false_eq_true]

/-- The way up ends at a file that says it is the last one, if not before. -/
theorem walk_append (below above : List Path) (ends : SettingsFile.isRoot tree (pathIn top)) :
    walk tree (below ++ top :: above) = walk tree (below ++ [top]) ∧
      (walk tree (below ++ [top])).2 = true := by
  induction below with
  | nil => simp [walk, SettingsFile.isFile_of_isRoot ends, ends]
  | cons directory below ih =>
    obtain ⟨same, ended⟩ := ih
    simp only [List.cons_append, walk, same]
    refine ⟨trivial, ?_⟩
    split_ifs
    · rfl
    · exact ended
    · exact ended

/-- Nothing is added to what was found if the way up ended early. -/
theorem discover_of_ended {directory : Path} (ended : (walk tree directory.ancestors).2 = true) :
    discover tree home directory = (walk tree directory.ancestors).1 := by
  simp [discover, ended]

/-- What is found are files. -/
theorem isFile_of_mem_discover {directory : Path}
    (found : path ∈ discover tree home directory) : tree.isFile path := by
  simp only [discover, List.mem_append, Option.mem_toList, Option.filter_eq_some_iff,
    Bool.and_eq_true] at found
  rcases found with onTheWay | ⟨-, ⟨-, isFile⟩, -⟩
  · exact isFile_of_mem_walk onTheWay
  · exact isFile

/-! ### Settings -/

theorem loadFiles_congr {paths : List Path}
    (alike : ∀ path ∈ paths, SettingsFile.load first path = SettingsFile.load second path) :
    loadFiles first paths = loadFiles second paths := by
  rw [loadFiles, loadFiles]
  congr 1
  induction paths with
  | nil => rfl
  | cons path paths ih =>
    obtain ⟨here, later⟩ := List.forall_mem_cons.1 alike
    rw [List.mapM_cons, List.mapM_cons, here, ih later]

/-- A file that says it is the last one settles the settings of every directory below it, together
with the files in between. The directories above it may differ in every way, and so may the home
directory, known or not, and its file. -/
theorem load_eq_of_isRoot {directory : Path} (home home' : Option Path)
    (onTheWay : directory.ancestors = below ++ top :: above)
    (ends : SettingsFile.isRoot first (pathIn top))
    (agree : ∀ directory ∈ below ++ [top], first.AgreeOn second (pathIn directory)) :
    load first home directory = load second home' directory := by
  have endsToo : SettingsFile.isRoot second (pathIn top) := by
    rw [← (agree top (by simp)).isRoot_eq (SettingsFile.isFile_of_isRoot ends), ends]
  obtain ⟨upTo, ended⟩ := walk_append below above ends
  obtain ⟨upToToo, endedToo⟩ := walk_append below above endsToo
  -- both discoveries come down to the directories up to the file
  have found : discover first home directory = (walk first (below ++ [top])).1 := by
    rw [discover_of_ended (by rw [onTheWay, upTo, ended]), onTheWay, upTo]
  have foundToo : discover second home' directory = (walk second (below ++ [top])).1 := by
    rw [discover_of_ended (by rw [onTheWay, upToToo, endedToo]), onTheWay, upToToo]
  rw [load, load, found, foundToo, ← walk_congr agree]
  refine loadFiles_congr fun path member => ?_
  obtain ⟨place, among, rfl, isFile⟩ := mem_walk member
  exact (agree place among).load_eq isFile

/-- A broken file above a project and another home directory with a file of its own change nothing
for a directory of the project, whose own file is broken as well. -/
theorem load_eq_of_isRoot_broken_above :
    let broken : Tree.Entry := .file (Text.encode "[".toList)
    let project := Tree.empty |>.put ["p"] .directory |>.put ["q", "p"] .directory
      |>.put [fileName, "q", "p"] broken
      |>.put [fileName, "p"] (.file (Text.encode "root = true".toList))
    let disturbed := project |>.put [fileName] broken |>.put ["h"] .directory
      |>.put [fileName, "h"] (.file [])
    SettingsFile.isRoot project (pathIn ⟨"/p"⟩) ∧
      load project none ⟨"/p/q"⟩ = load disturbed (some ⟨"/h"⟩) ⟨"/p/q"⟩ := by
  intro broken project disturbed
  have onTheWay : Path.ancestors ⟨"/p/q"⟩ = [⟨"/p/q"⟩] ++ ⟨"/p"⟩ :: [⟨"/"⟩] := rfl
  have ends : SettingsFile.isRoot project (pathIn ⟨"/p"⟩) := by cbv
  have near : project.read (pathIn ⟨"/p/q"⟩) = disturbed.read (pathIn ⟨"/p/q"⟩) := by cbv
  have far : project.read (pathIn ⟨"/p"⟩) = disturbed.read (pathIn ⟨"/p"⟩) := by cbv
  refine ⟨ends, load_eq_of_isRoot none (some ⟨"/h"⟩) onTheWay ends ?_⟩
  simp [Tree.AgreeOn, near, far]

end Settings

end SearchKeys
