/-
# Running commands

A command sees a tree of files, the home directory if one is known, the working directory and the
standard input. It prints to the standard output and to the standard error, it succeeds or fails,
and it may leave another tree behind.

Everything is printed without colours, as it is to anything but a terminal. That the working
directory cannot be told, that the input breaks off and that nothing can be printed is left out.

## Main definitions

* `Session`: what a command sees.
* `Outcome`: what a command does.
* `Command.run`: a command at work.
-/

import SearchKeys.CommandLine.Command
import SearchKeys.Query.Json
import SearchKeys.Query.Text
import SearchKeys.Settings.Discovery
import SearchKeys.Settings.Template
import SearchKeys.Terminal.Table

namespace SearchKeys.CommandLine

/-- What a command sees. -/
structure Session where
  /-- The files. -/
  tree : Tree
  /-- The home directory, if one is known. -/
  home : Option Path
  /-- The working directory. -/
  directory : Path
  /-- The standard input. -/
  input : List UInt8

/-- What a command does. -/
structure Outcome where
  /-- Whether it succeeds. -/
  succeeds : Bool
  /-- What it prints to the standard output. -/
  output : String
  /-- What it prints to the standard error. -/
  errors : String
  /-- The files afterwards. -/
  tree : Tree

namespace Session

/-- A success that leaves the files as they are. -/
def success (session : Session) (output errors : String) : Outcome :=
  ⟨true, output, errors, session.tree⟩

/-- A failure that leaves the files as they are. -/
def failure (session : Session) (output errors : String) : Outcome :=
  ⟨false, output, errors, session.tree⟩

/-- A failure because of keys. -/
def keysFailure (session : Session) (cause : KeysError) : Outcome :=
  session.failure "" ("error: " ++ cause.message ++ "\nhint: " ++ cause.hint ++ "\n")

/-- Goes on with the settings for the working directory. -/
def withSettings (session : Session) (next : Settings → Outcome) : Outcome :=
  match Settings.load session.tree session.home session.directory with
  | .ok settings => next settings
  | .error cause =>
    session.failure "" ("error: failed to load configuration: " ++ cause.message ++ "\n")

/-- The bytes of the keys. -/
def keys (session : Session) : KeysSource → List UInt8
  | .arguments keys => Text.encode (" ".intercalate keys).toList
  | .standardInput => session.input

/-- The settings about parsing with the overrides of the command line. -/
def parseSettings (settings : Settings) (overrides : Overrides) : ParseSettings :=
  settings.parse.override overrides.mode overrides.conjunction

/-- Goes on with the selected parse mode and what it makes of the keys. -/
def withAnalysis (session : Session) (overrides : Overrides) (keys : KeysSource)
    (next : Settings → Mode → Analysis → Outcome) : Outcome :=
  session.withSettings fun settings =>
    match (parseSettings settings overrides).createMode Registry.standard with
    | .error cause => session.keysFailure cause
    | .ok mode =>
      match mode.analyze (session.keys keys) with
      | .error cause => session.keysFailure cause
      | .ok analysis => next settings mode analysis

end Session

/-- The lines that report warnings about keys. -/
def warningLines (warnings : List Warning) : String :=
  String.join (warnings.map fun warning => "warning: " ++ warning.message ++ "\n")

/-- A query in a format. -/
def shown (format : OutputFormat) (query : Option Group) : String :=
  match format, query with
  | .json, query => Group.prettyJson? query
  | _, none => "(no query)\n"
  | .tree, some query => Terminal.outline false query
  | .query, some query => query.toText ++ "\n"

/-- Shows the query in keys. -/
def runParse (session : Session) (overrides : Overrides) (keys : KeysSource)
    (format : Option OutputFormat) (verbose : Bool) : Outcome :=
  session.withAnalysis overrides keys fun settings mode analysis =>
    let details := "mode: " ++ mode.id ++ " (" ++ mode.conjunction.keyword ++ ")\n" ++
      Terminal.tokenList false analysis.tokens ++ warningLines analysis.warnings
    session.success (shown (format.getD settings.output.format) analysis.query)
      (if verbose then details else "")

/-- Shows the tokens of keys. -/
def runTokens (session : Session) (overrides : Overrides) (keys : KeysSource) : Outcome :=
  session.withAnalysis overrides keys fun _ _ analysis =>
    let listing := Terminal.tokenList false analysis.tokens
    session.success (if analysis.tokens.isEmpty then "(no tokens)\n" else listing)
      (warningLines analysis.warnings)

/-- The table of the registered modes, in which a star marks one of them. -/
def modesTable (conjunction : Conjunction) (selected : String) : Terminal.Table :=
  { heading := ["Mode", "Label", "Description"]
    rows := (Registry.standard.createAll conjunction).map fun mode =>
      [if mode.id = selected then mode.id ++ " *" else mode.id, mode.label, mode.description] }

/-- Lists the parse modes. -/
def runModes (session : Session) (overrides : Overrides) : Outcome :=
  session.withSettings fun settings =>
    let chosen := Session.parseSettings settings overrides
    let listing :=
      "Parse modes (default conjunction " ++ chosen.conjunction.keyword ++ "):\n" ++
        (modesTable chosen.conjunction chosen.mode).text ++ "\n"
    if Registry.standard.contains chosen.mode then
      session.success (listing ++ "* selected mode\n") ""
    else
      session.failure listing
        ("warning: selected mode '" ++ chosen.mode ++ "' is not available\n")

/-- Writes a configuration file from its template. In the home directory it is always the
template for that directory. -/
def runInit (session : Session) (global force : Bool) : Outcome :=
  let homePath := Settings.globalPath? session.home
  -- in the home directory a local file would be the global one
  let forHome := global || (homePath.bind Path.parent?).any session.directory.same
  let template :=
    if forHome then Template.forHome Registry.standard
    else Template.forDirectory Registry.standard
  let path? := if forHome then homePath else some (Settings.pathIn session.directory)
  match path? with
  | none => session.failure "" ("error: " ++ Settings.noHomeMessage ++ "\n")
  | some path =>
    if session.tree.contains path && !force then
      session.failure ""
        ("error: configuration file already exists: " ++ path.text ++
          "\nhint: use --force to overwrite\n")
    else
      match session.tree.write path (Text.encode template.toList) with
      | .error cause =>
        session.failure ""
          ("error: failed to write " ++ path.text ++ ": " ++ cause.message ++ "\n")
      | .ok tree =>
        { succeeds := true
          output := "Created " ++ path.text ++ "\n\nConfiguration written:\n" ++
            Terminal.indent template ++ "\n"
          errors := ""
          tree := tree }

/-- Shows the settings in effect. -/
def runConfig (session : Session) : Outcome :=
  session.withSettings fun settings => session.success settings.text ""

/-- The line of a configuration file in a list of them. -/
def fileLine (home : Option Path) (path : Path) : String :=
  "   " ++ path.text ++ (if Settings.isGlobal home path then " (global)" else " (local)") ++ "\n"

/-- The lines that report warnings about settings. -/
def settingsReport (warnings : List SettingsWarning) : String :=
  "Warnings (" ++ toString warnings.length ++ "):\n" ++
    String.join (warnings.map fun warning => "   " ++ warning.message ++ "\n") ++ "\n" ++
    String.join (warnings.map fun _ =>
      "Hint: set [parse] mode to one of the modes listed by 'sk modes'\n")

/-- Checks the configuration files. -/
def runCheck (session : Session) : Outcome :=
  let paths := Settings.discover session.tree session.home session.directory
  if paths.isEmpty then
    session.success
      "No configuration files found.\n\nRun 'sk init' to create a configuration file.\n" ""
  else
    let listing := "Config files (highest precedence first):\n" ++
      String.join (paths.map (fileLine session.home)) ++ "\n"
    match Settings.loadFiles session.tree paths with
    | .error cause => session.failure listing ("error: " ++ cause.message ++ "\n")
    | .ok settings =>
      let warnings := settings.warnings Registry.standard
      if warnings.isEmpty then session.success (listing ++ "No issues found.\n") ""
      else session.failure (listing ++ settingsReport warnings) ""

/-- What a command does in a session. -/
def Command.run (command : Command) (session : Session) : Outcome :=
  match command with
  | .parse overrides keys format verbose => runParse session overrides keys format verbose
  | .tokens overrides keys => runTokens session overrides keys
  | .modes overrides => runModes session overrides
  | .init global force => runInit session global force
  | .config => runConfig session
  | .check => runCheck session

end SearchKeys.CommandLine
