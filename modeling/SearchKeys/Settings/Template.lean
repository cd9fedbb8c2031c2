/-
# Templates of configuration files

A new configuration file shows every setting in a comment, so that it changes nothing. It also
lists the parse modes that are registered, in the place that the text of the template leaves for
them.

## Main definitions

* `enumeration`: texts in a sentence.
* `Template.commented`: a text with every line of it in a comment.
* `Template.rendered`: a template from its text.
* `Template.forDirectory`, `Template.forHome`: the templates.
-/

import SearchKeys.Mode.Registry
import SearchKeys.Text.Lines
import SearchKeys.Text.Replace

namespace SearchKeys

/-- Texts in a sentence: `a`, `a or b`, `a, b or c`. -/
def enumeration (texts : List String) : String :=
  match texts.getLast?, texts.dropLast with
  | none, _ => "no modes registered"
  | some only, [] => only
  | some last, others => ", ".intercalate others ++ " or " ++ last

namespace Template

/-- A line as a comment. An empty line and a comment stay what they are. -/
def commentedLine (line : List Char) : List Char :=
  if line.isEmpty || line.head? == some '#' then line else '#' :: ' ' :: line

/-- A text with every line of it in a comment, each with a line end. -/
def commented (text : String) : String :=
  String.ofList ((Text.lines text.toList).flatMap fun line => commentedLine line ++ ['\n'])

/-- What stands for the registered modes in the text of a template. -/
def placeholder : String := "\x7bmodes\x7d"

/-- A template with the registered modes and with every line in a comment. -/
def rendered (text : String) (registry : Registry) : String :=
  let modes := enumeration registry.ids
  commented (String.ofList (Text.replace placeholder.toList modes.toList text.toList))

/-- The settings about parsing. -/
def parseSection : String :=
  "[parse]\n" ++
  "# How keys are interpreted: " ++ placeholder ++ ".\n" ++
  "mode = \"complex\"\n" ++
  "# Conjunction applied between terms written without an operator: AND or OR.\n" ++
  "conjunction = \"AND\"\n"

/-- The setting about the format of output. -/
def formatSection : String :=
  "[output]\n" ++
  "# Default output format for `sk parse`: tree, json or query.\n" ++
  "format = \"tree\"\n"

/-- The text of the template for a directory. -/
def directoryText : String :=
  "# sk configuration\n" ++
  "#\n" ++
  "# Settings in this file apply to sk invocations in this directory and below.\n" ++
  "# Files closer to the working directory take precedence over parent directories\n" ++
  "# and over the global ~/.sk.toml.\n" ++
  "\n" ++
  "# Stop looking for configuration in parent directories and ~/.sk.toml.\n" ++
  "root = false\n" ++
  "\n" ++
  parseSection ++
  "\n" ++
  formatSection ++
  "# Colour terminal output.\n" ++
  "color = true\n"

/-- The text of the template for the home directory. -/
def homeText : String :=
  "# sk global configuration (~/.sk.toml)\n" ++
  "#\n" ++
  "# Lowest-precedence defaults shared by every project.\n" ++
  "\n" ++
  parseSection ++
  "\n" ++
  formatSection

/-- The template for a directory. -/
def forDirectory (registry : Registry) : String :=
  rendered directoryText registry

/-- The template for the home directory. -/
def forHome (registry : Registry) : String :=
  rendered homeText registry

end Template

end SearchKeys
