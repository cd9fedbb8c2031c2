/-
# Finding configuration files

The configuration files for a directory are its own, those of the directories above it, and
the one of the home directory, in this order. A file may say that it is the last one. Where no
home directory is known, there is no such file.

## Main definitions

* `LoadError`: why settings cannot be loaded.
* `Settings.pathIn`, `Settings.globalPath?`, `Settings.isGlobal`: the path of a configuration
  file, that of the home directory, and whether a path is this one.
* `SettingsFile.load`: a configuration file at a path.
* `Settings.discover`: the configuration files for a directory.
* `Settings.load`, `Settings.loadFiles`: the settings for a directory, and from given files.
-/

import SearchKeys.Files.Tree
import SearchKeys.Settings.Merge
import SearchKeys.Text.Utf8

namespace SearchKeys

/-- Why settings cannot be loaded. -/
inductive LoadError
  /-- A configuration file cannot be read. -/
  | unreadable (path : Path) (cause : FileError)
  /-- A configuration file has a fault. -/
  | faulty (path : Path) (fault : Fault)
  deriving Repr

/-- The wording of a cause. -/
def LoadError.message : LoadError → String
  | unreadable path cause => "failed to read config file " ++ path.text ++ ": " ++ cause.message
  | faulty path fault =>
    "failed to parse config file " ++ path.text ++ ": TOML parse error: " ++ fault.message

/-- The text of the file at the end of a path. -/
def Tree.readText (tree : Tree) (path : Path) : Except FileError (List Char) := do
  match Text.decode (← tree.read path) with
  | .ok text => .ok text
  | .error _ => .error .notText

/-- What the configuration file at a path says. -/
def SettingsFile.load (tree : Tree) (path : Path) : Except LoadError SettingsFile :=
  match tree.readText path with
  | .error cause => .error (.unreadable path cause)
  | .ok text =>
    match SettingsFile.ofText text with
    | .ok file => .ok file
    | .error fault => .error (.faulty path fault)

/-- Whether the configuration file at a path can be read and says that it is the last one. -/
def SettingsFile.isRoot (tree : Tree) (path : Path) : Bool :=
  match SettingsFile.load tree path with
  | .ok file => file.root == some true
  | .error _ => false

namespace Settings

/-- The name of configuration files. -/
def fileName : String := ".sk.toml"

/-- The path of the configuration file of a directory. -/
def pathIn (directory : Path) : Path :=
  directory.join fileName

/-- The path of the configuration file of the home directory, if a home directory is known. -/
def globalPath? (home : Option Path) : Option Path :=
  home.map pathIn

/-- Whether a path is that of the configuration file of the home directory. -/
def isGlobal (home : Option Path) (path : Path) : Bool :=
  (globalPath? home).any path.same

/-- The wording of the cause where a home directory is asked for and none is known. -/
def noHomeMessage : String := "could not determine home directory"

/-- The configuration files of some directories, up to the first that says it is the last one,
and whether there is such a file. -/
def walk (tree : Tree) : List Path → List Path × Bool
  | [] => ([], false)
  | directory :: above =>
    let path := pathIn directory
    if tree.isFile path then
      if SettingsFile.isRoot tree path then ([path], true)
      else
        let rest := walk tree above
        (path :: rest.1, rest.2)
    else walk tree above

/-- The configuration files for a directory, those that come first in front. -/
def discover (tree : Tree) (home : Option Path) (directory : Path) : List Path :=
  let (found, ended) := walk tree directory.ancestors
  -- on the way up the file of the home directory may have been found already
  let last := (globalPath? home).filter fun global =>
    !ended && tree.isFile global && !found.any (isGlobal home)
  found ++ last.toList

/-- The settings from given configuration files, those in front coming first. The first file
that cannot be loaded is the cause of a failure. -/
def loadFiles (tree : Tree) (paths : List Path) : Except LoadError Settings := do
  let files ← paths.mapM fun path => do
    let file ← SettingsFile.load tree path
    return (path, file)
  return merge files

/-- The settings for a directory. -/
def load (tree : Tree) (home : Option Path) (directory : Path) : Except LoadError Settings :=
  loadFiles tree (discover tree home directory)

end Settings

end SearchKeys
