/-
# Commands

The first argument names a command, and the others are its own. Arguments that are not understood,
and those that ask for help, are answered by the same few lines on how commands are written.

## Main definitions

* `Command`: the commands with what was asked of them.
* `Command.ofArguments?`: the command that arguments ask for, if they can be read.
* `Command.readsInput`: whether a command reads the standard input.
* `Command.usage`: how commands are written.
-/

import SearchKeys.CommandLine.Arguments
import SearchKeys.Settings

namespace SearchKeys.CommandLine

/-- The settings that the command line overrides. -/
structure Overrides where
  /-- The id of the parse mode. -/
  mode : Option String
  /-- The conjunction between keys with no operator. -/
  conjunction : Option Conjunction
  deriving DecidableEq, Repr

/-- Where keys come from. -/
inductive KeysSource
  /-- The arguments. -/
  | arguments (keys : List String)
  /-- The standard input. -/
  | standardInput
  deriving DecidableEq, Repr

/-- A command with what was asked of it. -/
inductive Command
  /-- Parse keys and show the query, in a format of its own and with the tokens if asked. -/
  | parse (overrides : Overrides) (keys : KeysSource) (format : Option OutputFormat)
      (verbose : Bool)
  /-- Show the tokens of keys. -/
  | tokens (overrides : Overrides) (keys : KeysSource)
  /-- List the parse modes. -/
  | modes (overrides : Overrides)
  /-- Write a configuration file, possibly that of the home directory, possibly over another. -/
  | init (global force : Bool)
  /-- Show the settings in effect. -/
  | config
  /-- Check the configuration files. -/
  | check
  deriving DecidableEq, Repr

namespace Command

/-- The overrides among some arguments. The conjunction must be one. -/
def overrides? (arguments : Arguments) : Option Overrides :=
  match (arguments.value? .conjunction).map Conjunction.parse with
  | none => some ⟨arguments.value? .mode, none⟩
  | some (.ok conjunction) => some ⟨arguments.value? .mode, some conjunction⟩
  | some (.error _) => none

/-- The source of keys among some arguments: keys or the standard input, not both. -/
def keys? (arguments : Arguments) : Option KeysSource :=
  match arguments.has .stdin, arguments.keys with
  | false, [] => none
  | false, keys => some (.arguments keys)
  | true, [] => some .standardInput
  | true, _ => none

/-- The format among some arguments, of which there may be one. -/
def format? (arguments : Arguments) : Option (Option OutputFormat) :=
  match arguments.has .json, arguments.has .query with
  | false, false => some none
  | true, false => some (some .json)
  | false, true => some (some .query)
  | true, true => none

/-- The arguments of a command, unless they ask for help instead. -/
def arguments? (switches : List Switch) (takesKeys : Bool) (arguments : List String) :
    Option Arguments := do
  let collected ← Grammar.collect? ⟨.help :: switches, takesKeys⟩ arguments
  if collected.has .help then none else some collected

/-- The command that arguments ask for. -/
def ofArguments? : List String → Option Command
  | "parse" :: rest => do
    let arguments ← arguments? [.mode, .conjunction, .json, .query, .stdin, .verbose] true rest
    some (.parse (← overrides? arguments) (← keys? arguments) (← format? arguments)
      (arguments.has .verbose))
  | "tokens" :: rest => do
    let arguments ← arguments? [.mode, .conjunction, .stdin] true rest
    some (.tokens (← overrides? arguments) (← keys? arguments))
  | "modes" :: rest => do
    let arguments ← arguments? [.mode, .conjunction] false rest
    some (.modes (← overrides? arguments))
  | "init" :: rest => do
    let arguments ← arguments? [.global, .force] false rest
    some (.init (arguments.has .global) (arguments.has .force))
  | "config" :: rest => do
    let _ ← arguments? [] false rest
    some .config
  | "check" :: rest => do
    let _ ← arguments? [] false rest
    some .check
  | _ => none

/-- Whether a command reads the standard input. -/
def readsInput : Command → Bool
  | parse _ keys _ _ | tokens _ keys => keys == .standardInput
  | _ => false

/-- How commands are written. -/
def usage : String :=
  "Usage: sk parse [-m MODE] [-c AND|OR] [--json | --query] [-v] (KEYS... | --stdin)\n" ++
  "       sk tokens [-m MODE] [-c AND|OR] (KEYS... | --stdin)\n" ++
  "       sk modes [-m MODE] [-c AND|OR]\n" ++
  "       sk init [--global] [--force]\n" ++
  "       sk config\n" ++
  "       sk check\n"

end Command

end SearchKeys.CommandLine
