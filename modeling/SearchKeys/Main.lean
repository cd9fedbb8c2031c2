/-
# The program

The program reads what a command may see, runs the command and carries out what it did. A
command sees the configuration files of the working directory, of the directories above it and
of the home directory, and it writes at most one of them.

The home directory is the one that the environment names. Where it names none, none is known; the
operating system's list of users is not asked.

## Main definitions

* `homeDirectory?`: the home directory that the environment names.
* `readTree`: the part of the files that a command may see.
* `main`: the program itself.
-/

import SearchKeys.CommandLine.Run

namespace SearchKeys.CommandLine

/-- Reads a stream to its end, behind the bytes already read. -/
partial def readAll (stream : IO.FS.Stream) (done : ByteArray) : IO ByteArray := do
  let chunk ← stream.read 65536
  if chunk.isEmpty then return done else readAll stream (done ++ chunk)

/-- What lies at a path outside of the program. Reading a directory fails in a way of its
own. -/
def readEntry (path : Path) : IO (Option Tree.Entry) := do
  try
    let contents ← IO.FS.readBinFile path.text
    return some (.file contents.toList)
  catch
    | .inappropriateType .. => return some .directory
    | _ => return none

/-- The place of a path: its names, the innermost first. -/
def placeOf (path : Path) : List String :=
  (path.components.filterMap fun component =>
    match component with
    | .name text => some text
    | _ => none).reverse

/-- Adds what lies at a path to a tree. -/
def readInto (tree : Tree) (path : Path) : IO Tree := do
  match ← readEntry path with
  | some entry => return tree.put (placeOf path) entry
  | none => return tree

/-- The home directory that the environment names, if it names any. -/
def homeDirectory? : IO (Option Path) := do
  let named ← IO.getEnv "HOME"
  return (named.filter fun text => !text.isEmpty).map Path.mk

/-- The paths whose files a command may see or write. -/
def settingsPaths (home : Option Path) (directory : Path) : List Path :=
  (home.toList ++ directory.ancestors).map Settings.pathIn

/-- The part of the files that a command may see. -/
def readTree (home : Option Path) (directory : Path) : IO Tree :=
  (home.elim [] Path.ancestors ++ directory.ancestors ++ settingsPaths home directory).foldlM
    readInto Tree.empty

/-- Writes the files that a command has changed. -/
def writeChanges (paths : List Path) (before after : Tree) : IO Unit :=
  for path in paths do
    match after.read path with
    | .ok contents =>
      if (before.read path).toOption != some contents then
        IO.FS.writeBinFile path.text ⟨contents.toArray⟩
    | .error _ => pure ()

/-- Runs a command, writes what it changed and prints what it prints. The result is the exit
code. -/
def execute (command : Command) : IO UInt32 := do
  let home ← homeDirectory?
  let directory : Path := ⟨toString (← IO.currentDir)⟩
  let input ← if command.readsInput then readAll (← IO.getStdin) .empty else pure .empty
  let tree ← readTree home directory
  let outcome := command.run ⟨tree, home, directory, input.toList⟩
  try
    writeChanges (settingsPaths home directory) tree outcome.tree
  catch cause =>
    IO.eprintln ("error: failed to write: " ++ toString cause)
    return 1
  IO.print outcome.output
  IO.eprint outcome.errors
  return if outcome.succeeds then 0 else 1

end SearchKeys.CommandLine

/-- The program. Arguments that ask for no command are answered by the usage. -/
def main (arguments : List String) : IO UInt32 := do
  match SearchKeys.CommandLine.Command.ofArguments? arguments with
  | some command => SearchKeys.CommandLine.execute command
  | none =>
    IO.eprint SearchKeys.CommandLine.Command.usage
    return 2
