/-
# The configuration files that are found

Discovery goes up from a directory and takes the configuration file of each directory that has one,
up to the first file that says it is the last one. If there is no such file, that of the home
directory comes at the end, unless it was found on the way up or no home directory is known.

No file is found twice, because the directories on the way up differ in what they name.

## Main definitions

* `Settings.filesIn`: the configuration files of some directories.
* `Settings.upToRoot`: files up to the first one that says it is the last one.

## Main results

* `SettingsFile.isRoot_iff`: which files are last ones.
* `Settings.walk_eq`: the files that are found on the way up.
* `Settings.pairwise_pathIn_ancestors`: no two directories on the way up have the same file.
* `Settings.discover_eq_upToRoot`: the files that are found, and their order.
-/

import SearchKeys.Proofs.Files.Ancestors
import SearchKeys.Proofs.Settings.Discovery

namespace SearchKeys

variable {tree : Tree} {home : Option Path} {path directory : Path}
  {directories files : List Path}

/-- A file is a last one if it can be read, has no fault and says so. -/
theorem SettingsFile.isRoot_iff : SettingsFile.isRoot tree path ↔
    ∃ text file, tree.readText path = .ok text ∧ SettingsFile.ofText text = .ok file ∧
      file.root = some true := by
  unfold isRoot load
  cases tree.readText path with
  | error cause => simp
  | ok text => cases parsed : SettingsFile.ofText text <;> simp [parsed]

namespace Settings

/-! ### The way up -/

/-- The configuration files of some directories. -/
def filesIn (tree : Tree) (directories : List Path) : List Path :=
  (directories.map pathIn).filter tree.isFile

/-- The files up to the first one that says it is the last one, with this one. -/
def upToRoot (tree : Tree) (files : List Path) : List Path :=
  files.take (files.findIdx (SettingsFile.isRoot tree) + 1)

theorem upToRoot_cons (tree : Tree) (path : Path) (files : List Path) :
    upToRoot tree (path :: files) =
      path :: if SettingsFile.isRoot tree path then [] else upToRoot tree files := by
  cases ends : SettingsFile.isRoot tree path <;> simp [upToRoot, List.findIdx_cons, ends]

/-- The way up leads to the files of the directories, up to the first last one. -/
theorem walk_eq (tree : Tree) (directories : List Path) :
    walk tree directories =
      (upToRoot tree (filesIn tree directories),
        (upToRoot tree (filesIn tree directories)).any (SettingsFile.isRoot tree)) := by
  induction directories with
  | nil => rfl
  | cons directory above ih =>
    rw [walk, ih]
    -- a directory without a file adds nothing, and a last one cuts off what lies above it
    cases isFile : tree.isFile (pathIn directory) with
    | false => simp [filesIn, isFile]
    | true =>
      have files : filesIn tree (directory :: above) = pathIn directory :: filesIn tree above := by
        simp [filesIn, isFile]
      rw [files, upToRoot_cons]
      cases ends : SettingsFile.isRoot tree (pathIn directory) <;> simp [ends]

/-- Only the file at the end can be a last one. -/
theorem isRoot_of_mem_dropLast (inFront : path ∈ (upToRoot tree files).dropLast) :
    SettingsFile.isRoot tree path = false := by
  induction files with
  | nil => simp [upToRoot] at inFront
  | cons first others ih =>
    rw [upToRoot_cons] at inFront
    cases ends : SettingsFile.isRoot tree first with
    | true => simp [ends] at inFront
    | false =>
      -- behind a file that is no last one the others are cut in the same way
      rw [if_neg (by simp [ends])] at inFront
      rcases eq_or_ne (upToRoot tree others) [] with none | notEmpty
      · simp [none] at inFront
      · rw [List.dropLast_cons_of_ne_nil notEmpty] at inFront
        rcases List.mem_cons.1 inFront with rfl | later
        · exact ends
        · exact ih later

/-! ### Different files -/

/-- The path of a configuration file names what its directory does, and the name of the file. -/
theorem components_pathIn (directory : Path) :
    (pathIn directory).components = directory.components ++ [.name fileName] :=
  directory.components_join (by decide) (by decide)

/-- Directories that differ in what they name have different configuration files. -/
theorem same_pathIn_iff : (pathIn path).same (pathIn directory) ↔ path.same directory := by
  simp [Path.same, components_pathIn]

/-- No two directories on the way up have the same configuration file. -/
theorem pairwise_pathIn_ancestors (directory : Path) :
    (directory.ancestors.map pathIn).Pairwise fun first second => ¬first.same second := by
  rw [List.pairwise_map]
  refine directory.pairwise_ancestors.imp fun differ same => differ ?_
  simpa [Path.same] using same_pathIn_iff.1 same

/-- No file is found twice on the way up. -/
theorem pairwise_upToRoot_ancestors (tree : Tree) (directory : Path) :
    (upToRoot tree (filesIn tree directory.ancestors)).Pairwise fun first second =>
      ¬first.same second :=
  (pairwise_pathIn_ancestors directory).sublist
    ((List.take_sublist _ _).trans List.filter_sublist)

/-! ### The file of the home directory -/

section Home

variable {found : List Path} (apart : found.any (isGlobal home) = false)
include apart

theorem not_isGlobal_of_mem (member : path ∈ found) : ¬isGlobal home path :=
  List.any_eq_false.1 apart path member

/-- If the file of the home directory is not among files that differ, it differs from them. -/
theorem pairwise_concat_global (differ : found.Pairwise fun first second => ¬first.same second)
    {global : Path} (known : globalPath? home = some global) :
    (found ++ [global]).Pairwise fun first second => ¬first.same second := by
  refine List.pairwise_append.2 ⟨differ, List.pairwise_singleton _ _, ?_⟩
  intro path member last atEnd same
  obtain rfl := List.mem_singleton.1 atEnd
  exact not_isGlobal_of_mem apart member ((isGlobal_iff_same known).2 (BEq.symm same))

/-- If the file of the home directory is not among files but behind them, it is only there. -/
theorem eq_of_concat_global {before after : List Path} {last : Path}
    (parts : found ++ [last] = before ++ path :: after)
    (here : isGlobal home path) : before = found ∧ after = [] := by
  rcases List.eq_nil_or_concat after with rfl | ⟨front, other, rfl⟩
  · obtain ⟨front, -⟩ := List.append_inj' parts rfl
    exact ⟨front.symm, rfl⟩
  · -- otherwise it would be among the files in front of the last place
    rw [List.concat_eq_append, ← List.cons_append, ← List.append_assoc] at parts
    obtain ⟨front, -⟩ := List.append_inj' parts rfl
    exact absurd here (not_isGlobal_of_mem apart (by simp [front]))

end Home

/-! ### All files -/

/-- What is found is the file of each directory on the way up that has one, up to the first last
one, and behind them the file of the home directory, if one is known, there is no last one and the
file is not among them. No file is found twice, a last one is at the end, and so is the file of the
home directory if it was not found on the way up. -/
theorem discover_eq_upToRoot (tree : Tree) (home : Option Path) (directory : Path) :
    let found := upToRoot tree (filesIn tree directory.ancestors)
    let onTheWay := found.any (isGlobal home)
    let discovered := discover tree home directory
    (∀ path : Path, path.ancestors = path :: path.parent?.elim [] Path.ancestors) ∧
    directory.ancestors.map Path.components = Path.leadingParts directory.components ∧
    (∀ path, SettingsFile.isRoot tree path ↔
      ∃ text file, tree.readText path = .ok text ∧ SettingsFile.ofText text = .ok file ∧
        file.root = some true) ∧
    discovered = found ++ ((globalPath? home).filter fun global =>
      !found.any (SettingsFile.isRoot tree) && tree.isFile global && !onTheWay).toList ∧
    discovered.Pairwise (fun first second => ¬first.same second) ∧
    (∀ path ∈ discovered.dropLast, SettingsFile.isRoot tree path = false) ∧
    (onTheWay = false → ∀ before path after, discovered = before ++ path :: after →
      isGlobal home path → before = found ∧ after = []) := by
  intro found onTheWay discovered
  have discovered_eq : discovered = found ++ ((globalPath? home).filter fun global =>
      !found.any (SettingsFile.isRoot tree) && tree.isFile global && !onTheWay).toList := by
    simp only [discovered, discover, walk_eq, found, onTheWay]
  have differ : found.Pairwise fun first second => ¬first.same second :=
    pairwise_upToRoot_ancestors tree directory
  have parts : discovered = found ∨ ∃ global, globalPath? home = some global ∧
      found.any (SettingsFile.isRoot tree) = false ∧ onTheWay = false ∧
      discovered = found ++ [global] := by
    rw [discovered_eq]
    generalize last_eq : Option.filter _ (globalPath? home) = last
    cases last with
    | none => exact .inl (List.append_nil found)
    | some global =>
      obtain ⟨known, atEnd⟩ := Option.filter_eq_some_iff.1 last_eq
      simp only [Bool.and_eq_true, Bool.not_eq_true'] at atEnd
      exact .inr ⟨global, known, atEnd.1.1, atEnd.2, rfl⟩
  refine ⟨Path.ancestors_eq, directory.map_components_ancestors,
    fun path => SettingsFile.isRoot_iff, discovered_eq, ?_, ?_, ?_⟩
  all_goals rcases parts with all | ⟨global, known, noRoot, apart, all⟩ <;> rw [all]
  · exact differ
  · exact pairwise_concat_global apart differ known
  · exact fun path => isRoot_of_mem_dropLast
  · rw [List.dropLast_concat]
    simpa using noRoot
  · -- the file of the home directory is not found at all
    intro apart before path after parts here
    exact absurd here (not_isGlobal_of_mem apart (by simp [parts]))
  · exact fun _ before path after parts => eq_of_concat_global apart parts

/-- A broken file does not end the way up, and the file of a home directory elsewhere comes behind
it, also if it says that it is a last one. -/
theorem discover_eq_upToRoot_broken :
    let tree := Tree.empty |>.put ["p"] .directory
      |>.put [fileName, "p"] (.file (Text.encode "[".toList))
      |>.put ["h"] .directory |>.put [fileName, "h"] (.file (Text.encode "root = true".toList))
    let discovered := discover tree (some ⟨"/h"⟩) ⟨"/p"⟩
    discovered = [⟨"/p/.sk.toml"⟩, ⟨"/h/.sk.toml"⟩] ∧
      SettingsFile.isRoot tree ⟨"/h/.sk.toml"⟩ ∧
      ∀ before path after, discovered = before ++ path :: after →
        isGlobal (some ⟨"/h"⟩) path → before = [⟨"/p/.sk.toml"⟩] ∧ after = [] := by
  intro tree discovered
  have noRoot : SettingsFile.isRoot tree ⟨"/p/.sk.toml"⟩ = false := by cbv
  have found : upToRoot tree (filesIn tree (Path.ancestors ⟨"/p"⟩)) = [⟨"/p/.sk.toml"⟩] := by
    have directories : (Path.ancestors ⟨"/p"⟩).map pathIn = [⟨"/p/.sk.toml"⟩, ⟨"/.sk.toml"⟩] := rfl
    have isFile : tree.isFile ⟨"/p/.sk.toml"⟩ := by cbv
    have noFile : tree.isFile ⟨"/.sk.toml"⟩ = false := by cbv
    simp [filesIn, directories, isFile, noFile, upToRoot]
  have global : globalPath? (some ⟨"/h"⟩) = some ⟨"/h/.sk.toml"⟩ := rfl
  have isFile : tree.isFile ⟨"/h/.sk.toml"⟩ := by cbv
  have differ : isGlobal (some ⟨"/h"⟩) ⟨"/p/.sk.toml"⟩ = false := by cbv
  have ends : SettingsFile.isRoot tree ⟨"/h/.sk.toml"⟩ := by cbv
  obtain ⟨-, -, -, parts, -, -, apart⟩ := discover_eq_upToRoot tree (some ⟨"/h"⟩) ⟨"/p"⟩
  rw [found] at parts apart
  simp only [List.any_cons, List.any_nil, noRoot, global, Option.filter_some, isFile, differ]
    at parts apart
  exact ⟨parts, ends, apart rfl⟩

end Settings

end SearchKeys
