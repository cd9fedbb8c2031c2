/-
# Terminal styles

Text for a terminal is styled by escape sequences: the codes of its styles stand in front of
it and a reset behind it. JSON and TOML are not coloured by their syntax.

## Main definitions

* `Style`, `Style.code`: the styles and their escape sequences.
* `Terminal.paint`: text in some styles.
* `Terminal.header` and its neighbours: the uses of styles in messages.
* `Terminal.plainText`: text shown in the default colour of the theme.
-/

import SearchKeys.Text.Lines

namespace SearchKeys.Terminal

/-- A style of text on a terminal. -/
inductive Style
  | bold
  | dim
  | red
  | green
  | yellow
  | magenta
  | cyan
  deriving DecidableEq, Repr

/-- The escape sequence that switches a style on. -/
def Style.code : Style → String
  | bold => "\x1b[1m"
  | dim => "\x1b[2m"
  | red => "\x1b[31m"
  | green => "\x1b[32m"
  | yellow => "\x1b[33m"
  | magenta => "\x1b[35m"
  | cyan => "\x1b[36m"

/-- The escape sequence that switches all styles off. -/
def reset : String := "\x1b[0m"

/-- Text in some styles. -/
def paint (styles : List Style) (text : String) : String :=
  String.join (styles.map Style.code) ++ text ++ reset

/-- A heading. -/
def header (text : String) : String := paint [.bold, .cyan] text

/-- A heading of lower rank. -/
def subheader (text : String) : String := paint [.bold] text

/-- Text of less importance. -/
def dim (text : String) : String := paint [.dim] text

/-- A message of success. -/
def success (text : String) : String := paint [.green] text

/-- A message of warning. -/
def warning (text : String) : String := paint [.yellow] text

/-- A horizontal rule of the given width. -/
def rule (width : Nat) : String :=
  dim (String.ofList (List.replicate width '─'))

/-- Text of less importance, styled only where colour is wanted. -/
def dimIf (coloured : Bool) (text : String) : String :=
  if coloured then dim text else text

/-- The escape sequence of the default colour of the theme. -/
def foreground : String := "\x1b[38;2;248;248;242m"

/-- Text without any structure, its lines in the default colour of the theme. -/
def plainText (text : String) : String :=
  String.join ((Text.pieces text.toList).map fun piece => foreground ++ String.ofList piece) ++
    reset

/-- The lines of a text, each indented by two spaces, without a final line end. -/
def indent (text : String) : String :=
  "\n".intercalate ((Text.lines text.toList).map fun line => "  " ++ String.ofList line)

end SearchKeys.Terminal
