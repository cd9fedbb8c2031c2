/-
# Writing a configuration file

A new configuration file says nothing. Writing one where there is none adds this file and nothing
else, and what the other commands show is what they showed before, whatever other configuration
files there are.

## Main definitions

* `Outcome.shown`: what is seen of a command at work.
* `Command.followsSettings`: commands that depend on the files by the settings in effect alone.

## Main results

* `Command.shown_run`: with the same settings in effect such a command shows the same.
* `runInit_cases`: a configuration file that says nothing is added, or nothing is done.
* `succeeds_runInit`: when a file is written.
* `Command.init_adds_silent_file`: what a new configuration file changes.
-/

import SearchKeys.CommandLine.Run
import SearchKeys.Proofs.Settings.Template

namespace SearchKeys.CommandLine

variable {session : Session} {tree : Tree}

/-! ### Commands that follow the settings -/

/-- What is seen of a command at work: whether it succeeds, and what it prints. -/
def Outcome.shown (outcome : Outcome) : Bool × String × String :=
  (outcome.succeeds, outcome.output, outcome.errors)

/-- Whether a command depends on the files by the settings in effect alone. -/
def Command.followsSettings : Command → Bool
  | parse .. | tokens .. | modes .. | config => true
  | init .. | check => false

section SameSettings

variable (same : (Settings.load tree session.home session.directory).map Settings.inEffect =
  (Settings.load session.tree session.home session.directory).map Settings.inEffect)
include same

/-- What is shown with the settings depends on those in effect if what goes on with them does. -/
theorem Session.shown_withSettings {next next' : Settings → Outcome}
    (alike : ∀ settings settings', settings.inEffect = settings'.inEffect →
      (next settings).shown = (next' settings').shown) :
    (Session.withSettings { session with tree } next).shown =
      (session.withSettings next').shown := by
  unfold withSettings
  dsimp only
  generalize Settings.load tree session.home session.directory = loaded at same ⊢
  generalize Settings.load session.tree session.home session.directory = loaded' at same ⊢
  cases loaded with
  | error cause =>
    cases loaded' with
    | error cause' =>
      obtain rfl : cause = cause' := Except.error.inj same
      rfl
    | ok settings' => cases same
  | ok settings =>
    cases loaded' with
    | error cause' => cases same
    | ok settings' => exact alike settings settings' (Except.ok.inj same)

theorem Session.shown_withAnalysis {overrides : Overrides} {keys : KeysSource}
    {next next' : Settings → Mode → Analysis → Outcome}
    (alike : ∀ settings settings' mode analysis, settings.inEffect = settings'.inEffect →
      (next settings mode analysis).shown = (next' settings' mode analysis).shown) :
    (Session.withAnalysis { session with tree } overrides keys next).shown =
      (session.withAnalysis overrides keys next').shown := by
  refine shown_withSettings same fun settings settings' equal => ?_
  have parse : settings.parse = settings'.parse := congrArg Prod.fst equal
  have bytes : Session.keys { session with tree } keys = session.keys keys := by
    cases keys <;> rfl
  simp only [parseSettings, parse, bytes]
  split
  · rfl
  · split
    · rfl
    · exact alike _ _ _ _ equal

/-- With the same settings in effect a command that follows them shows the same. -/
theorem Command.shown_run {command : Command} (follows : command.followsSettings) :
    (command.run { session with tree }).shown = (command.run session).shown := by
  cases command with
  | parse overrides keys format verbose =>
    refine Session.shown_withAnalysis same ?_
    rintro ⟨parse, output, _, _⟩ ⟨parse', output', _, _⟩ mode analysis equal
    obtain ⟨rfl, rfl⟩ := Prod.mk.inj equal
    rfl
  | tokens overrides keys =>
    exact Session.shown_withAnalysis same fun _ _ _ _ _ => rfl
  | modes overrides =>
    refine Session.shown_withSettings same ?_
    rintro ⟨parse, output, _, _⟩ ⟨parse', output', _, _⟩ equal
    obtain ⟨rfl, rfl⟩ := Prod.mk.inj equal
    simp only [apply_ite Outcome.shown]
    rfl
  | config =>
    refine Session.shown_withSettings same ?_
    rintro ⟨parse, output, _, _⟩ ⟨parse', output', _, _⟩ equal
    obtain ⟨rfl, rfl⟩ := Prod.mk.inj equal
    rfl
  | init | check => cases follows

end SameSettings

/-! ### The new file -/

/-- What is written says nothing, whether it is for the home directory or for another one. -/
theorem ofText_template (forHome : Bool) :
    SettingsFile.ofText (if forHome then Template.forHome Registry.standard
      else Template.forDirectory Registry.standard).toList = .ok {} := by
  have ids := Template.commentable_standard
  cases forHome with
  | false => exact Template.ofText_forDirectory ids
  | true => exact Template.ofText_forHome ids

/-- It is written to the configuration file of some directory. -/
theorem exists_eq_pathIn {forHome : Bool} {path : Path}
    (chosen : (if forHome then Settings.globalPath? session.home
      else some (Settings.pathIn session.directory)) = some path) :
    ∃ directory, path = Settings.pathIn directory := by
  cases forHome with
  | false => exact ⟨session.directory, (Option.some.inj chosen).symm⟩
  | true =>
    obtain ⟨home, -, isPath⟩ := Option.map_eq_some_iff.1 chosen
    exact ⟨home, isPath.symm⟩

/-- The command does nothing, or it writes a file that says nothing where there is no other. -/
theorem runInit_write (session : Session) (global : Bool) :
    (∃ errors, runInit session global false = session.failure "" errors) ∨
      ∃ directory contents, SettingsFile.Silent contents ∧
        session.tree.contains (Settings.pathIn directory) = false ∧
        session.tree.write (Settings.pathIn directory) contents =
          .ok (runInit session global false).tree ∧
        (runInit session global false).succeeds := by
  unfold runInit
  dsimp only
  generalize (global || ((Settings.globalPath? session.home).bind Path.parent?).any
    session.directory.same) = forHome
  have silent := SettingsFile.silent_encode (ofText_template forHome)
  split
  · -- the home directory is asked for and not known
    exact .inl ⟨_, rfl⟩
  · next path chosen =>
    obtain ⟨directory, rfl⟩ := exists_eq_pathIn chosen
    split
    · exact .inl ⟨_, rfl⟩
    · next free =>
      split
      · exact .inl ⟨_, rfl⟩
      · next after written =>
        exact .inr ⟨directory, _, silent, by simpa using free, written, rfl⟩

/-- The command does nothing, or it adds one configuration file that says nothing to a directory
that has none. -/
theorem runInit_cases (session : Session) (global : Bool) :
    (∃ errors, runInit session global false = session.failure "" errors) ∨
      ∃ directory contents, SettingsFile.Silent contents ∧ session.tree.isDirectory directory ∧
        session.tree.Vacant (Settings.fileName :: directory) ∧
        (runInit session global false).succeeds ∧
        (runInit session global false).tree =
          session.tree.put (Settings.fileName :: directory) (.file contents) := by
  rcases runInit_write session global with
    nothing | ⟨path, contents, silent, free, written, succeeds⟩
  · exact .inl nothing
  · obtain ⟨directory, name, ends, isDirectory, vacant, tree_eq⟩ :=
      Tree.vacant_of_write free written
    obtain rfl : Settings.fileName = name := by
      simpa [Settings.getLast?_steps_pathIn] using ends
    exact .inr ⟨directory, contents, silent, isDirectory, vacant, succeeds, tree_eq⟩

/-- A file is written if nothing lies at the end of its path and the path can be followed up to
there. -/
theorem succeeds_runInit {place : List String}
    (notHome : ((Settings.globalPath? session.home).bind Path.parent?).any
      session.directory.same = false)
    (free : session.tree.contains (Settings.pathIn session.directory) = false)
    (reached : session.tree.placeFor (Settings.pathIn session.directory) = .ok place) :
    (runInit session false false).succeeds := by
  simp [runInit, notHome, free, Tree.write, reached, bind, Except.bind]

/-- What lies at the end of a path stays there. -/
theorem find_runInit {path : Path} {entry : Tree.Entry} (global : Bool)
    (found : session.tree.find path = .ok entry) :
    (runInit session global false).tree.find path = .ok entry := by
  rcases runInit_cases session global with ⟨errors, nothing⟩ | ⟨_, _, _, _, vacant, _, tree_eq⟩
  · rw [nothing]
    exact found
  · rw [tree_eq]
    exact vacant.find_put found

/-- The settings in effect stay the same. -/
theorem inEffect_load_runInit (session : Session) (global : Bool) (home : Option Path)
    (directory : Path) :
    (Settings.load (runInit session global false).tree home directory).map Settings.inEffect =
      (Settings.load session.tree home directory).map Settings.inEffect := by
  rcases runInit_cases session global with
    ⟨errors, nothing⟩ | ⟨_, _, silent, _, vacant, _, tree_eq⟩
  · rw [nothing]
    rfl
  · rw [tree_eq]
    exact Settings.inEffect_load_put vacant silent home directory

namespace Command

/-- Unless it is told to write over another one, the command for a new configuration file changes
nothing when it fails, and adds one file to a directory when it succeeds. Whatever was there stays
as it is. The settings in effect are the same as before in every directory, or fail to load for
the same reason, so that every command that follows them shows the same. -/
theorem init_adds_silent_file (session : Session) (global : Bool) :
    let outcome := (init global false).run session
    (outcome.succeeds = false ∧ outcome.tree = session.tree ∨
      outcome.succeeds ∧ ∃ directory contents, session.tree.isDirectory directory ∧
        session.tree.entry? (Settings.fileName :: directory) = none ∧
        outcome.tree = session.tree.put (Settings.fileName :: directory) (.file contents)) ∧
    (∀ path entry, session.tree.find path = .ok entry → outcome.tree.find path = .ok entry) ∧
    (∀ directory, (Settings.load outcome.tree session.home directory).map Settings.inEffect =
      (Settings.load session.tree session.home directory).map Settings.inEffect) ∧
    ∀ (command : Command) (directory : Path) (input : List UInt8), command.followsSettings →
      (command.run ⟨outcome.tree, session.home, directory, input⟩).shown =
        (command.run ⟨session.tree, session.home, directory, input⟩).shown := by
  intro outcome
  have settings : ∀ directory,
      (Settings.load outcome.tree session.home directory).map Settings.inEffect =
        (Settings.load session.tree session.home directory).map Settings.inEffect :=
    inEffect_load_runInit session global session.home
  refine ⟨?_, fun path entry found => find_runInit global found, settings, ?_⟩
  · rcases runInit_cases session global with
      ⟨errors, nothing⟩ | ⟨directory, contents, _, isDirectory, vacant, succeeds, tree_eq⟩
    · exact .inl ⟨congrArg Outcome.succeeds nothing, congrArg Outcome.tree nothing⟩
    · exact .inr ⟨succeeds, directory, contents, isDirectory, vacant.nothing, tree_eq⟩
  · intro command directory input follows
    let there : Session := ⟨session.tree, session.home, directory, input⟩
    have same : (Settings.load outcome.tree there.home there.directory).map Settings.inEffect =
        (Settings.load there.tree there.home there.directory).map Settings.inEffect :=
      settings directory
    exact shown_run same follows

/-- Below a broken configuration file a new one can be written. The broken one stays where it is,
and keys fail to be parsed as before. -/
theorem init_adds_silent_file_broken_above :
    let broken : Tree.Entry := .file (Text.encode "[".toList)
    let tree := Tree.empty |>.put ["p"] .directory |>.put [Settings.fileName] broken
    let session : Session := ⟨tree, some ⟨"/h"⟩, ⟨"/p"⟩, []⟩
    let outcome := (init false false).run session
    let command := tokens ⟨none, none⟩ .standardInput
    outcome.succeeds ∧ tree.find ⟨"/.sk.toml"⟩ = .ok broken ∧ command.followsSettings ∧
      outcome.tree.find ⟨"/.sk.toml"⟩ = .ok broken ∧
      (Settings.load outcome.tree (some ⟨"/h"⟩) ⟨"/p"⟩).map Settings.inEffect =
        .error (.faulty ⟨"/.sk.toml"⟩ .malformed) ∧
      (command.run ⟨outcome.tree, some ⟨"/h"⟩, ⟨"/p"⟩, []⟩).shown =
        (command.run session).shown := by
  intro broken tree session outcome command
  obtain ⟨_, kept, settings, alike⟩ := init_adds_silent_file session false
  have found : tree.find ⟨"/.sk.toml"⟩ = .ok broken := by cbv
  have before : (Settings.load tree (some ⟨"/h"⟩) ⟨"/p"⟩).map Settings.inEffect =
      .error (.faulty ⟨"/.sk.toml"⟩ .malformed) := by cbv
  have reached : tree.placeFor (Settings.pathIn ⟨"/p"⟩) = .ok [Settings.fileName, "p"] := by cbv
  have succeeds : outcome.succeeds := succeeds_runInit (by cbv) (by cbv) reached
  exact ⟨succeeds, found, rfl, kept _ _ found, (settings ⟨"/p"⟩).trans before,
    alike command ⟨"/p"⟩ [] rfl⟩

end Command

end SearchKeys.CommandLine
