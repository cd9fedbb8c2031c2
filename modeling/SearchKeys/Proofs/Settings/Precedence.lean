/-
# Which file decides a setting

Configuration files are laid over one another from the last one to the first one. Each setting is
then what the first file says that says anything about it, whatever that file and the others say
about other settings, also about those of the same section.

## Main definitions

* `Setting`: the settings that a configuration file can give, with `Setting.Value`.
* `Setting.given?`, `Setting.inEffect`, `Setting.initial`: what a setting is in a file, in effect
  and without any file.

## Main results

* `Setting.inEffect_over`: what a layer does to a setting.
* `Setting.inEffect_merge`: the first file that gives a setting decides it.
* `Settings.merge_append_of_silent`, `Settings.merge_append_of_given`: files that do not matter.
* `Settings.merge_firstGiven`: what is made of several files, as a whole.
-/

import SearchKeys.Settings.Merge

namespace SearchKeys

/-- The settings that a configuration file can give. -/
inductive Setting
  /-- The id of the parse mode. -/
  | mode
  /-- The conjunction between keys with no operator. -/
  | conjunction
  /-- How a query is shown. -/
  | format
  /-- Whether a terminal shows colours. -/
  | color
  deriving DecidableEq, Repr

namespace Setting

/-- What a setting can be. -/
def Value : Setting → Type
  | mode => String
  | conjunction => Conjunction
  | format => OutputFormat
  | color => Bool

/-- What a file says a setting is. It says nothing without the section or without the field. -/
def given? : (setting : Setting) → SettingsFile → Option setting.Value
  | mode, file => file.parse.bind (·.mode)
  | conjunction, file => file.parse.bind (·.conjunction)
  | format, file => file.output.bind (·.format)
  | color, file => file.output.bind (·.color)

/-- What a setting is. -/
def inEffect : (setting : Setting) → Settings → setting.Value
  | mode, settings => settings.parse.mode
  | conjunction, settings => settings.parse.conjunction
  | format, settings => settings.output.format
  | color, settings => settings.output.color

/-- What a setting is if no file gives it. -/
def initial : (setting : Setting) → setting.Value
  | mode => "complex"
  | conjunction => Conjunction.and
  | format => OutputFormat.tree
  | color => true

/-- A layer decides the settings that it gives, and no others. -/
theorem inEffect_over (setting : Setting) (file : SettingsFile) (settings : Settings) :
    setting.inEffect (file.over settings) =
      (setting.given? file).getD (setting.inEffect settings) := by
  -- a section that is missing and one without the field come to the same
  rcases file with ⟨root, _ | part, _ | output⟩ <;> cases setting <;> rfl

/-- The first file lies over what the others make. -/
theorem inEffect_merge_cons (setting : Setting) (file : Path × SettingsFile)
    (files : List (Path × SettingsFile)) :
    setting.inEffect (Settings.merge (file :: files)) =
      (setting.given? file.2).getD (setting.inEffect (Settings.merge files)) := by
  have above : setting.inEffect (Settings.merge (file :: files)) =
      setting.inEffect (file.2.over (Settings.merge files)) := by
    cases setting <;> rfl
  rw [above, inEffect_over]

/-- The first file that gives a setting decides it. -/
theorem inEffect_merge (setting : Setting) (files : List (Path × SettingsFile)) :
    setting.inEffect (Settings.merge files) =
      (files.findSome? fun file => setting.given? file.2).getD setting.initial := by
  -- the induction is on the layers: below all of them are the initial values
  induction files with
  | nil => cases setting <;> rfl
  | cons file files ih =>
    rw [inEffect_merge_cons, ih, List.findSome?_cons]
    cases setting.given? file.2 <;> rfl

end Setting

namespace Settings

variable {setting : Setting} {file : SettingsFile} {near : List (Path × SettingsFile)}

/-- A file that gives no setting does not matter, wherever it stands. -/
theorem merge_append_of_silent (silent : ∀ setting : Setting, setting.given? file = none)
    (near far : List (Path × SettingsFile)) (path : Path) (setting : Setting) :
    setting.inEffect (merge (near ++ (path, file) :: far)) =
      setting.inEffect (merge (near ++ far)) := by
  rw [Setting.inEffect_merge, Setting.inEffect_merge, List.findSome?_append,
    List.findSome?_append, List.findSome?_cons, silent]

/-- Once a setting is given, files that come later do not matter to it. -/
theorem merge_append_of_given (given : ∃ file ∈ near, setting.given? file.2 ≠ none)
    (far : List (Path × SettingsFile)) :
    setting.inEffect (merge (near ++ far)) = setting.inEffect (merge near) := by
  rw [Setting.inEffect_merge, Setting.inEffect_merge, List.findSome?_append]
  cases first : near.findSome? fun file => setting.given? file.2 with
  | none =>
    -- a file in front that gives the setting would have been found
    obtain ⟨file, member, some⟩ := given
    exact absurd (List.findSome?_eq_none_iff.1 first file member) some
  | some value => rfl

/-- Of several files, the first one that gives a setting decides it, each setting on its own. All
of them are named, and the first one says where they come from. So a file that gives nothing
changes no setting, and neither does a file behind one that gives the setting. -/
theorem merge_firstGiven (files : List (Path × SettingsFile)) :
    (∀ setting : Setting, setting.inEffect (merge files) =
      (files.findSome? fun file => setting.given? file.2).getD setting.initial) ∧
    (merge files).sources = files.map Prod.fst ∧
    (merge files).directory = files.head?.bind (fun file => file.1.parent?) ∧
    (∀ near path file far, files = near ++ (path, file) :: far →
      (∀ setting : Setting, setting.given? file = none) →
      ∀ setting : Setting,
        setting.inEffect (merge files) = setting.inEffect (merge (near ++ far))) ∧
    (∀ near far, files = near ++ far → ∀ setting : Setting,
      (∃ file ∈ near, setting.given? file.2 ≠ none) →
      setting.inEffect (merge files) = setting.inEffect (merge near)) := by
  refine ⟨fun setting => setting.inEffect_merge files, rfl, rfl, ?_, ?_⟩
  · rintro near path file far rfl silent
    exact merge_append_of_silent silent near far path
  · rintro near far rfl setting given
    exact merge_append_of_given given far

/-- The nearer file gives a conjunction alone, the farther one both settings of the section and one
of the other section; in between lies a file with an empty section. -/
theorem merge_firstGiven_partial :
    let near : SettingsFile := { parse := some { conjunction := some .or } }
    let between : SettingsFile := { root := some false, parse := some {} }
    let far : SettingsFile :=
      { parse := some { mode := some "terms", conjunction := some .and }
        output := some { format := some .json } }
    let files := [(⟨"/p/q/.sk.toml"⟩, near), (⟨"/p/.sk.toml"⟩, between), (⟨"/.sk.toml"⟩, far)]
    (merge files).parse = ⟨"terms", .or⟩ ∧ (merge files).output = ⟨.json, true⟩ ∧
      (merge files).directory = some ⟨"/p/q"⟩ ∧
      (∀ setting : Setting, setting.inEffect (merge files) =
        setting.inEffect (merge [(⟨"/p/q/.sk.toml"⟩, near), (⟨"/.sk.toml"⟩, far)])) ∧
      Setting.conjunction.inEffect (merge files) =
        Setting.conjunction.inEffect (merge [(⟨"/p/q/.sk.toml"⟩, near)]) := by
  intro near between far files
  obtain ⟨-, -, directory, silent, given⟩ := merge_firstGiven files
  have parent : Path.parent? ⟨"/p/q/.sk.toml"⟩ = some ⟨"/p/q"⟩ := rfl
  refine ⟨rfl, rfl, by simpa [files, parent] using directory, ?_, ?_⟩
  · exact silent [_] _ between [_] rfl fun setting => by cases setting <;> rfl
  · exact given [_] _ rfl .conjunction ⟨_, .head _, Option.some_ne_none Conjunction.or⟩

end Settings

end SearchKeys
