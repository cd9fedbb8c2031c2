/-
# Arguments

The arguments of a command are switches, which come first, and keys. A switch has a long name
and possibly a short one; some take a value. Short switches may be written together.

A command that takes keys reads an unknown switch as the first key, and everything behind the
first key is a key. A command without keys refuses both.

## Main definitions

* `Switch`: the switches.
* `Grammar`: what a command accepts.
* `Grammar.shape`: what a single argument is.
* `Arguments`, `Grammar.collect?`: the switches and keys among some arguments.
-/

namespace SearchKeys.CommandLine

/-- The switches of all commands. -/
inductive Switch
  /-- The parse mode. -/
  | mode
  /-- The conjunction between keys with no operator. -/
  | conjunction
  /-- Showing the query as JSON. -/
  | json
  /-- Showing the query as keys. -/
  | query
  /-- Reading the keys from standard input. -/
  | stdin
  /-- Showing tokens and warnings. -/
  | verbose
  /-- Writing the configuration file of the home directory. -/
  | global
  /-- Overwriting a configuration file. -/
  | force
  /-- Asking for help. -/
  | help
  deriving DecidableEq, Repr

namespace Switch

/-- The long name of a switch. -/
def long : Switch → String
  | mode => "mode"
  | conjunction => "conjunction"
  | json => "json"
  | query => "query"
  | stdin => "stdin"
  | verbose => "verbose"
  | global => "global"
  | force => "force"
  | help => "help"

/-- The short name of a switch, if it has one. -/
def short? : Switch → Option Char
  | mode => some 'm'
  | conjunction => some 'c'
  | verbose => some 'v'
  | help => some 'h'
  | _ => none

/-- Whether a switch takes a value. -/
def takesValue : Switch → Bool
  | mode | conjunction => true
  | _ => false

end Switch

/-- A switch as it occurs in an argument. -/
inductive Occurrence
  /-- A switch without a value. -/
  | flag (switch : Switch)
  /-- A switch with its value. -/
  | valued (switch : Switch) (value : String)
  /-- A switch whose value is the next argument. -/
  | awaiting (switch : Switch)
  deriving DecidableEq, Repr

/-- The switch of an occurrence. -/
def Occurrence.switch : Occurrence → Switch
  | flag switch | valued switch _ | awaiting switch => switch

/-- What an argument is. -/
inductive Shape
  /-- Two hyphens, which separate the keys from the switches. -/
  | separator
  /-- No switch. -/
  | plain
  /-- One or more switches that the command knows. -/
  | switches (occurrences : List Occurrence)
  /-- A switch that the command does not know. -/
  | unknown
  /-- A value for a switch that takes none. -/
  | refused
  deriving DecidableEq, Repr

/-- What a command accepts. -/
structure Grammar where
  /-- The switches it knows. -/
  switches : List Switch
  /-- Whether it takes keys. -/
  takesKeys : Bool
  deriving DecidableEq, Repr

namespace Grammar

/-- The switch with a long name. -/
def long? (grammar : Grammar) (name : String) : Option Switch :=
  grammar.switches.find? fun switch => switch.long == name

/-- The switch with a short name. -/
def short? (grammar : Grammar) (name : Char) : Option Switch :=
  grammar.switches.find? fun switch => switch.short? == some name

/-- What an argument with two hyphens in front is. An equals sign separates the value. -/
def longShape (grammar : Grammar) (text : List Char) : Shape :=
  let name := text.takeWhile (· != '=')
  match grammar.long? (String.ofList name) with
  | none => .unknown
  | some switch =>
    match text.dropWhile (· != '=') with
    | [] => .switches [if switch.takesValue then .awaiting switch else .flag switch]
    | _ :: value =>
      if switch.takesValue then .switches [.valued switch (String.ofList value)] else .refused

/-- The switches that are written together, unless one of them is unknown. The rest behind a
switch that takes a value is its value, from which an equals sign in front is left out. -/
def cluster? (grammar : Grammar) : List Char → Option (List Occurrence)
  | [] => some []
  | name :: rest => do
    let switch ← grammar.short? name
    if switch.takesValue then
      match rest with
      | [] => some [.awaiting switch]
      | '=' :: value => some [.valued switch (String.ofList value)]
      | value => some [.valued switch (String.ofList value)]
    else
      let others ← grammar.cluster? rest
      some (.flag switch :: others)

/-- What an argument with one hyphen in front is. Where keys are taken, every character must be
the name of a switch, also in a value. -/
def shortShape (grammar : Grammar) (text : List Char) : Shape :=
  -- this makes `-cOR` a key, while the two arguments `-c OR` are a switch and its value
  if grammar.takesKeys && text.any (fun name => (grammar.short? name).isNone) then .unknown
  else
    match grammar.cluster? text with
    | some occurrences => .switches occurrences
    | none => .unknown

/-- What an argument is. -/
def shape (grammar : Grammar) (argument : String) : Shape :=
  match argument.toList with
  | ['-', '-'] => .separator
  | '-' :: '-' :: text => grammar.longShape text
  | ['-'] => .plain
  | '-' :: text => grammar.shortShape text
  | _ => .plain

/-- Whether an argument can be the value of the switch in front of it. -/
def isValue (grammar : Grammar) (argument : String) : Bool :=
  match grammar.shape argument with
  | .plain => true
  | .unknown => grammar.takesKeys
  | _ => false

end Grammar

/-- The switches and keys among some arguments. -/
structure Arguments where
  /-- The switches in order. -/
  switches : List Occurrence
  /-- The keys in order. -/
  keys : List String
  deriving DecidableEq, Repr

namespace Grammar

/-- Ends the switches with some arguments as keys. -/
def withKeys? (grammar : Grammar) (switches : List Occurrence) (keys : List String) :
    Option Arguments :=
  if grammar.takesKeys || keys.isEmpty then some ⟨switches, keys⟩ else none

/-- Collects switches and keys behind the switches already found. -/
def collectFrom? (grammar : Grammar) (found : List Occurrence) : List String → Option Arguments
  | [] => some ⟨found, []⟩
  | argument :: rest =>
    match grammar.shape argument with
    | .separator => grammar.withKeys? found rest
    | .plain | .unknown => grammar.withKeys? found (argument :: rest)
    | .refused => none
    | .switches occurrences =>
      -- of switches written together only the last one can await a value
      match occurrences.getLast? with
      | some (.awaiting switch) =>
        match rest with
        | [] => none
        | value :: rest =>
          if grammar.isValue value then
            grammar.collectFrom? (found ++ occurrences.dropLast ++ [.valued switch value]) rest
          else none
      | _ => grammar.collectFrom? (found ++ occurrences) rest

/-- The switches and keys among some arguments. No switch may occur twice. -/
def collect? (grammar : Grammar) (arguments : List String) : Option Arguments := do
  let collected ← grammar.collectFrom? [] arguments
  if (collected.switches.map Occurrence.switch).Nodup then some collected else none

end Grammar

namespace Arguments

/-- Whether a switch is given. -/
def has (arguments : Arguments) (switch : Switch) : Bool :=
  arguments.switches.any fun occurrence => occurrence.switch == switch

/-- The value given for a switch. -/
def value? (arguments : Arguments) (switch : Switch) : Option String :=
  arguments.switches.findSome? fun occurrence =>
    match occurrence with
    | .valued other value => if other = switch then some value else none
    | _ => none

end Arguments

end SearchKeys.CommandLine
