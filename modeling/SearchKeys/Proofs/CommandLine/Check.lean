/-
# Checking the configuration

The check of the configuration tells in advance whether the other commands will work. It succeeds
exactly if the settings can be loaded and select a parse mode that is there, and so does every
command that parses keys with the mode of the settings.

## Main definitions

* `Session.Ready`: the settings can be loaded, and the parse mode that is asked for is there.
* `Command.request?`: the overrides and the keys of a command that parses keys.

## Main results

* `Command.succeeds_modes_iff`, `Command.succeeds_request_iff`, `Command.succeeds_check_iff`,
  `Command.succeeds_config_iff`: when each command succeeds.
* `Command.succeeds_check_eq`: the check succeeds exactly if the other commands do.
-/

import Mathlib
import SearchKeys.CommandLine.Run
import SearchKeys.Proofs.Mode.Readable
import SearchKeys.Proofs.Mode.Registry

namespace SearchKeys

namespace CommandLine

variable {session : Session} {overrides : Overrides} {keys : KeysSource} {text : List Char}

/-! ### Sessions -/

namespace Session

/-- The settings can be loaded, and the given parse mode, or else that of the settings, is
there. -/
def Ready (session : Session) (chosen : Option String) : Prop :=
  ∃ settings, Settings.load session.tree session.home session.directory = .ok settings ∧
    Registry.standard.contains (chosen.getD settings.parse.mode)

theorem succeeds_withSettings_iff {next : Settings → Outcome} :
    (session.withSettings next).succeeds ↔
      ∃ settings, Settings.load session.tree session.home session.directory = .ok settings ∧
        (next settings).succeeds := by
  unfold withSettings
  split <;> simp_all [failure]

/-- Keys that are a text are analyzed exactly if the session is ready. -/
theorem succeeds_withAnalysis_iff {next : Settings → Mode → Analysis → Outcome}
    (isText : session.keys keys = Text.encode text)
    (succeeds : ∀ settings mode analysis, (next settings mode analysis).succeeds) :
    (session.withAnalysis overrides keys next).succeeds ↔ session.Ready overrides.mode := by
  rw [withAnalysis, succeeds_withSettings_iff, Ready]
  refine exists_congr fun settings => and_congr_right fun _ => ?_
  change _ ↔ Registry.standard.contains (parseSettings settings overrides).mode
  rw [← Registry.exists_create_iff _ (parseSettings settings overrides).conjunction,
    ParseSettings.createMode]
  split
  · next cause notCreated => simp [notCreated, keysFailure, failure]
  · next mode created =>
    obtain ⟨analysis, analyzed⟩ := Mode.exists_analysis (Registry.mem_createAll created) text
    simp [isText, analyzed, succeeds, created]

end Session

/-! ### Commands -/

namespace Command

/-- The overrides and the keys of a command that parses keys. -/
def request? : Command → Option (Overrides × KeysSource)
  | parse overrides keys _ _ => some (overrides, keys)
  | tokens overrides keys => some (overrides, keys)
  | _ => none

theorem succeeds_request_iff {command : Command} (asks : command.request? = some (overrides, keys))
    (isText : session.keys keys = Text.encode text) :
    (command.run session).succeeds ↔ session.Ready overrides.mode := by
  cases command with
  | parse _ _ format verbose =>
    obtain ⟨rfl, rfl⟩ := Prod.mk.inj (Option.some.inj asks)
    exact Session.succeeds_withAnalysis_iff isText fun _ _ _ => rfl
  | tokens =>
    obtain ⟨rfl, rfl⟩ := Prod.mk.inj (Option.some.inj asks)
    exact Session.succeeds_withAnalysis_iff isText fun _ _ _ => rfl
  | modes | init | config | check => cases asks

theorem succeeds_modes_iff :
    ((modes overrides).run session).succeeds ↔ session.Ready overrides.mode := by
  refine Session.succeeds_withSettings_iff.trans ?_
  refine exists_congr fun settings => and_congr_right fun _ => ?_
  change _ ↔ Registry.standard.contains (Session.parseSettings settings overrides).mode
  dsimp only
  split <;> simp_all [Session.success, Session.failure]

theorem succeeds_config_iff :
    (config.run session).succeeds ↔
      ∃ settings, Settings.load session.tree session.home session.directory = .ok settings := by
  refine Session.succeeds_withSettings_iff.trans (exists_congr fun settings => ?_)
  exact and_iff_left rfl

/-- The check looks for the files and loads them by itself, and comes to the same verdict. -/
theorem succeeds_check_iff : (check.run session).succeeds ↔ session.Ready none := by
  rw [Session.Ready, Settings.load]
  change (runCheck session).succeeds ↔ _
  unfold runCheck
  dsimp only
  generalize Settings.discover session.tree session.home session.directory = paths
  split
  · next none =>
    -- without files the settings are the defaults, whose mode is there
    obtain rfl := List.isEmpty_iff.1 none
    exact iff_of_true rfl ⟨_, rfl, by decide⟩
  · split
    · next cause failed => simp [failed, Session.failure]
    · next settings loaded =>
      simp only [loaded, Except.ok.injEq, exists_eq_left', Option.getD_none, Settings.warnings]
      split <;> simp_all [Session.success, Session.failure]

/-- The check succeeds exactly if the list of the modes does, and exactly if any command does that
parses keys with the mode of the settings, whatever text it is given as keys. Where the settings
cannot be shown, it fails. -/
theorem succeeds_check_eq (session : Session) :
    ((check.run session).succeeds ↔ ((modes ⟨none, none⟩).run session).succeeds) ∧
      (∀ (command : Command) (conjunction : Option Conjunction) (keys : KeysSource)
        (input : List UInt8) (text : List Char),
        command.request? = some (⟨none, conjunction⟩, keys) →
        ({ session with input } : Session).keys keys = Text.encode text →
        ((check.run session).succeeds ↔ (command.run { session with input }).succeeds)) ∧
      ((config.run session).succeeds = false → (check.run session).succeeds = false) := by
  have modesReady : ((modes ⟨none, none⟩).run session).succeeds ↔ session.Ready none :=
    succeeds_modes_iff
  refine ⟨succeeds_check_iff.trans modesReady.symm, ?_, fun notShown => ?_⟩
  · intro command conjunction keys input text asks isText
    exact succeeds_check_iff.trans (succeeds_request_iff asks isText).symm
  · rw [← Bool.not_eq_true] at notShown ⊢
    refine mt (fun checked => ?_) notShown
    obtain ⟨settings, loaded, _⟩ := succeeds_check_iff.1 checked
    exact succeeds_config_iff.2 ⟨settings, loaded⟩

/-- Where the settings name a mode that is not there, the check tells what becomes of a command
with keys from its arguments and a conjunction of its own. -/
theorem succeeds_check_eq_unknown_mode :
    let settings : Tree.Entry := .file (Text.encode "parse.mode=\"x\"".toList)
    let session : Session := ⟨Tree.empty.put [Settings.fileName] settings, some ⟨"/"⟩, ⟨"/"⟩, []⟩
    let command : Command := tokens ⟨none, some .or⟩ (.arguments ["a"])
    ofArguments? ["tokens", "-c", "or", "a"] = some command ∧
      session.keys (.arguments ["a"]) = Text.encode ['a'] ∧
      ((check.run session).succeeds ↔ (command.run session).succeeds) := by
  intro settings session command
  have isText : session.keys (.arguments ["a"]) = Text.encode ['a'] := by cbv
  refine ⟨by cbv, isText, ?_⟩
  exact (succeeds_check_eq session).2.1 command (some .or) (.arguments ["a"]) [] ['a'] rfl isText

end Command

end CommandLine

end SearchKeys
