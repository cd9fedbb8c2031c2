/-
# Configuration files that say nothing

A new configuration file that says nothing changes the settings of no directory, wherever it is
found: on the way up, as the file of the home directory, or not at all. Where the settings could
not be loaded, they fail for the same reason.

## Main definitions

* `Settings.inEffect`: the settings without the places they come from.
* `SettingsFile.Silent`: the contents of a file that says nothing.

## Main results

* `Settings.inEffect_loadFiles_cons`: files are laid over one another one by one.
* `Settings.discover_put`: what was found before is found with a new file, in the same order.
* `Settings.inEffect_load_put`: a new file that says nothing changes no settings.
-/

import SearchKeys.Proofs.Settings.Discovery

namespace SearchKeys

variable {tree : Tree} {place : List String} {contents : List UInt8} {path : Path}
  {paths : List Path}

/-! ### Layers -/

namespace Settings

/-- The settings without the places they come from. -/
def inEffect (settings : Settings) : ParseSettings × OutputSettings :=
  (settings.parse, settings.output)

/-- The settings in effect with a file laid over them. -/
def layer (file : SettingsFile) (below : ParseSettings × OutputSettings) :
    ParseSettings × OutputSettings :=
  (file.over { parse := below.1, output := below.2 }).inEffect

/-- A file that says nothing is as good as none. -/
theorem layer_empty (below : ParseSettings × OutputSettings) : layer {} below = below := rfl

theorem inEffect_merge_cons (path : Path) (file : SettingsFile)
    (files : List (Path × SettingsFile)) :
    (merge ((path, file) :: files)).inEffect = layer file (merge files).inEffect := rfl

/-- The first file is laid over the settings from the others. -/
theorem inEffect_loadFiles_cons (tree : Tree) (path : Path) (paths : List Path) :
    (loadFiles tree (path :: paths)).map inEffect =
      (do
        let file ← SettingsFile.load tree path
        let below ← (loadFiles tree paths).map inEffect
        return layer file below) := by
  simp only [loadFiles, List.mapM_cons]
  cases SettingsFile.load tree path with
  | error cause => rfl
  | ok file =>
    cases paths.mapM fun path => do
        let file ← SettingsFile.load tree path
        return (path, file) with
    | error cause => rfl
    | ok files => exact congrArg Except.ok (inEffect_merge_cons path file files)

end Settings

/-! ### The new file -/

/-- The contents of a file that is no last one and sets nothing. -/
def SettingsFile.Silent (contents : List UInt8) : Prop :=
  ∃ text, Text.decode contents = .ok text ∧ SettingsFile.ofText text = .ok {}

/-- A text that says nothing makes a file that says nothing. -/
theorem SettingsFile.silent_encode {text : List Char}
    (read : SettingsFile.ofText text = .ok {}) : SettingsFile.Silent (Text.encode text) :=
  ⟨text, Text.decode_encode text, read⟩

/-- A new configuration file can be loaded, and says nothing. -/
theorem SettingsFile.Silent.load_put (silent : SettingsFile.Silent contents)
    (vacant : tree.Vacant place) (notBefore : tree.isFile path = false)
    (isFile : (tree.put place (.file contents)).isFile path) :
    SettingsFile.load (tree.put place (.file contents)) path = .ok {} := by
  obtain ⟨text, decoded, read⟩ := silent
  simp [load, Tree.readText, vacant.read_put_of_isFile notBefore isFile, bind, Except.bind,
    decoded, read]

namespace Settings

variable (vacant : tree.Vacant place) (silent : SettingsFile.Silent contents)
include vacant silent

/-- On the way up the files are found that were found before, and the way up ends where it
ended. -/
theorem walk_put (directories : List Path) :
    walk tree directories =
      ((walk (tree.put place (.file contents)) directories).1.filter tree.isFile,
        (walk (tree.put place (.file contents)) directories).2) := by
  induction directories with
  | nil => rfl
  | cons directory above ih =>
    rw [walk, walk, ih]
    cases before : tree.isFile (pathIn directory) with
    | true =>
      have agree : tree.AgreeOn (tree.put place (.file contents)) _ := vacant.agreeOn_put before
      rw [agree.isRoot_eq before, ← agree.isFile_eq]
      by_cases ends :
          SettingsFile.isRoot (tree.put place (.file contents)) (pathIn directory) <;>
        simp [before, ends]
    | false =>
      by_cases after : (tree.put place (.file contents)).isFile (pathIn directory)
      · -- the new file does not end the way up
        have goesOn :
            SettingsFile.isRoot (tree.put place (.file contents)) (pathIn directory) = false := by
          simp [SettingsFile.isRoot, silent.load_put vacant before after]
        simp [before, after, goesOn]
      · simp [after]

omit silent in
/-- The file of the home directory is among files that are found with the new one exactly if it is
among those of them that were there before. -/
theorem any_isGlobal_filter {home : Option Path} {global : Path}
    (known : globalPath? home = some global) (before : tree.isFile global)
    (areFiles : ∀ path ∈ paths, (tree.put place (.file contents)).isFile path) :
    (paths.filter tree.isFile).any (isGlobal home) = paths.any (isGlobal home) := by
  rw [Bool.eq_iff_iff]
  simp only [List.any_eq_true, List.mem_filter, and_assoc, isGlobal_iff_same known]
  refine exists_congr fun path => and_congr_right fun member => ?_
  exact and_iff_right_of_imp fun same => vacant.isFile_of_same before same (areFiles path member)

/-- What was found before is found with a new file, in the same order. -/
theorem discover_put (home : Option Path) (directory : Path) :
    discover tree home directory =
      (discover (tree.put place (.file contents)) home directory).filter tree.isFile := by
  simp only [discover, walk_put vacant silent, List.filter_append]
  have areFiles : ∀ path ∈ (walk (tree.put place (.file contents)) directory.ancestors).1,
      (tree.put place (.file contents)).isFile path := fun _ => isFile_of_mem_walk
  generalize walk (tree.put place (.file contents)) directory.ancestors = found at areFiles ⊢
  congr 1
  cases known : globalPath? home with
  | none => rfl
  | some global =>
    rw [Option.filter_some, Option.filter_some]
    cases before : tree.isFile global with
    | true =>
      have agree : tree.AgreeOn (tree.put place (.file contents)) _ := vacant.agreeOn_put before
      rw [any_isGlobal_filter vacant known before areFiles, ← agree.isFile_eq, before]
      split_ifs <;> simp [before]
    | false =>
      simp only [Bool.and_false, Bool.false_and, Bool.false_eq_true, if_false]
      split_ifs <;> simp [before]

/-- The files that were there before make the settings that all of them make with the new one. -/
theorem inEffect_loadFiles_put
    (areFiles : ∀ path ∈ paths, (tree.put place (.file contents)).isFile path) :
    (loadFiles (tree.put place (.file contents)) paths).map inEffect =
      (loadFiles tree (paths.filter tree.isFile)).map inEffect := by
  induction paths with
  | nil => rfl
  | cons path paths ih =>
    obtain ⟨here, later⟩ := List.forall_mem_cons.1 areFiles
    rw [inEffect_loadFiles_cons, ih later]
    cases before : tree.isFile path with
    | true =>
      have agree : tree.AgreeOn (tree.put place (.file contents)) _ := vacant.agreeOn_put before
      rw [List.filter_cons_of_pos before, inEffect_loadFiles_cons, agree.load_eq before]
    | false =>
      rw [List.filter_cons_of_neg (by simp [before]), silent.load_put vacant before here]
      change (do return layer {} (← (loadFiles tree (paths.filter tree.isFile)).map inEffect)) = _
      simp only [layer_empty, bind_pure]

/-- A new file that says nothing changes the settings of no directory, and the settings fail to
load for the same reason as before. -/
theorem inEffect_load_put (home : Option Path) (directory : Path) :
    (load (tree.put place (.file contents)) home directory).map inEffect =
      (load tree home directory).map inEffect := by
  rw [load, load, discover_put vacant silent]
  exact inEffect_loadFiles_put vacant silent fun path found => isFile_of_mem_discover found

end Settings

end SearchKeys
