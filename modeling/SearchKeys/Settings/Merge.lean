/-
# Merging configuration files

Several configuration files apply at once, in a fixed order. Each lies like a layer over those
behind it: what it says replaces what they say, field by field.

## Main definitions

* `SettingsFile.over`: settings with a file laid over them.
* `Settings.merge`: the settings that files make, those in front coming first.
-/

import SearchKeys.Settings.File

namespace SearchKeys

/-- The settings with what a file says in place of what they said. -/
def SettingsFile.over (file : SettingsFile) (settings : Settings) : Settings :=
  { settings with
    parse := match file.parse with
      | some part => settings.parse.override part.mode part.conjunction
      | none => settings.parse
    output := match file.output with
      | some part => settings.output.override part.format part.color
      | none => settings.output }

/-- The settings that configuration files make. The files in front come first. -/
def Settings.merge (files : List (Path × SettingsFile)) : Settings :=
  -- the last file lies lowest, directly over the defaults
  let merged := files.foldr (fun file settings => file.2.over settings) {}
  { merged with
    directory := files.head?.bind fun file => file.1.parent?
    sources := files.map Prod.fst }

end SearchKeys
