/-
# Settings

Settings say how keys are parsed and how the result is shown. They come from configuration
files, over the defaults, and the command line may override the first half of them.

## Main definitions

* `OutputFormat`: the ways of showing a query.
* `ParseSettings`, `OutputSettings`, `Settings`: the settings with their defaults.
* `ParseSettings.override`: settings with some of them replaced.
* `ParseSettings.createMode`: the parse mode that the settings select.
* `Settings.text`: the settings as a configuration file.
* `Settings.warnings`: what is wrong with settings, given the registered modes.
-/

import SearchKeys.Files.Path
import SearchKeys.Mode.Registry
import SearchKeys.Toml.Quoting.Write
import SearchKeys.Toml.Value

namespace SearchKeys

/-- The ways of showing a query. -/
inductive OutputFormat
  /-- The outline of the query. -/
  | tree
  /-- The query as JSON. -/
  | json
  /-- The query as keys. -/
  | query
  deriving DecidableEq, Repr

/-- The name of a format. -/
def OutputFormat.keyword : OutputFormat → String
  | tree => "tree"
  | json => "json"
  | query => "query"

/-- How keys are parsed. -/
structure ParseSettings where
  /-- The id of the parse mode. -/
  mode : String := "complex"
  /-- The conjunction between keys with no operator. -/
  conjunction : Conjunction := .and
  deriving DecidableEq, Repr

/-- How results are shown. -/
structure OutputSettings where
  /-- How a query is shown. -/
  format : OutputFormat := .tree
  /-- Whether a terminal shows colours. -/
  color : Bool := true
  deriving DecidableEq, Repr

/-- The settings in effect, and where they come from. -/
structure Settings where
  /-- How keys are parsed. -/
  parse : ParseSettings := {}
  /-- How results are shown. -/
  output : OutputSettings := {}
  /-- The directory of the file that comes first. -/
  directory : Option Path := none
  /-- The configuration files, those that come first in front. -/
  sources : List Path := []
  deriving DecidableEq, Repr

/-- The settings with a mode and a conjunction in place of their own, where given. -/
def ParseSettings.override (mode : Option String) (conjunction : Option Conjunction)
    (settings : ParseSettings) : ParseSettings :=
  ⟨mode.getD settings.mode, conjunction.getD settings.conjunction⟩

/-- The settings with a format and a choice about colours in place of their own, where given. -/
def OutputSettings.override (format : Option OutputFormat) (color : Option Bool)
    (settings : OutputSettings) : OutputSettings :=
  ⟨format.getD settings.format, color.getD settings.color⟩

/-- The parse mode that the settings select. -/
def ParseSettings.createMode (settings : ParseSettings) (registry : Registry) :
    Except KeysError Mode :=
  registry.create settings.mode settings.conjunction

/-! ### Settings as a configuration file -/

/-- The settings as a configuration file, every field written out. -/
def Settings.text (settings : Settings) : String :=
  "[parse]\nmode = " ++ Toml.quoted settings.parse.mode ++
    "\nconjunction = " ++ Toml.quoted settings.parse.conjunction.keyword ++
    "\n\n[output]\nformat = " ++ Toml.quoted settings.output.format.keyword ++
    "\ncolor = " ++ Toml.truthKeyword settings.output.color ++ "\n"

/-! ### Warnings about settings -/

/-- What is wrong with settings that can be read. -/
inductive SettingsWarning
  /-- No parse mode is registered under the chosen id. -/
  | unknownMode (mode : String) (available : List String)
  deriving DecidableEq, Repr

/-- The wording of a warning. -/
def SettingsWarning.message : SettingsWarning → String
  | unknownMode mode available =>
    "unknown parse mode '" ++ mode ++ "' (available: " ++ ", ".intercalate available ++ ")"

/-- The warnings about settings, given the registered modes. -/
def Settings.warnings (settings : Settings) (registry : Registry) : List SettingsWarning :=
  if registry.contains settings.parse.mode then []
  else [.unknownMode settings.parse.mode registry.ids]

end SearchKeys
