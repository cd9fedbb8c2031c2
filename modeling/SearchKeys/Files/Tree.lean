/-
# A tree of files

Commands see a tree of directories and files. It is given by what lies at each place, where a
place is the list of names that lead to it, the innermost name first.

A path is followed step by step, so a step up leaves the directory that was reached, and every
step needs a directory to be taken in.

This leaves out what the tree cannot tell. There are no links, and no permissions either, so a file
that is found can be read and written. Writing fails before anything is created, or it succeeds as a
whole, so a device that is full or breaks down on the way is not described. Nothing but a command
changes the tree while it is at work.

## Main definitions

* `Tree`, `Tree.Entry`: trees, and what lies at a place.
* `FileError`: why a file cannot be read or written.
* `Tree.locate`: the place that a path leads to.
* `Tree.isFile`, `Tree.contains`: what lies at the end of a path.
* `Tree.read`, `Tree.write`: the bytes of a file, and a tree with one more file.
-/

import SearchKeys.Files.Path

namespace SearchKeys

/-- Why a file cannot be read or written. -/
inductive FileError
  /-- There is nothing at the end of the path or on the way. -/
  | notFound
  /-- The path leads through a file. -/
  | notADirectory
  /-- The path leads to a directory. -/
  | isADirectory
  /-- The path, or a name on it, is longer than it may be. -/
  | nameTooLong
  /-- The path contains the null character, which ends a path. -/
  | nullCharacter
  /-- The contents are not UTF-8. -/
  | notText
  deriving DecidableEq, Repr

/-- The wording of a cause. -/
def FileError.message : FileError → String
  | notFound => "No such file or directory (os error 2)"
  | notADirectory => "Not a directory (os error 20)"
  | isADirectory => "Is a directory (os error 21)"
  | nameTooLong => "File name too long (os error 36)"
  | nullCharacter => "file name contained an unexpected NUL byte"
  | notText => "stream did not contain valid UTF-8"

/-- What lies at a place of a tree. -/
inductive Tree.Entry
  /-- A directory; what lies in it is told by the tree. -/
  | directory
  /-- A file. -/
  | file (contents : List UInt8)
  deriving DecidableEq, Repr

/-- A tree of files. -/
structure Tree where
  /-- What lies at a place, given by its names with the innermost first. -/
  entry? : List String → Option Tree.Entry

namespace Tree

/-- The tree with nothing in it. -/
def empty : Tree :=
  ⟨fun _ => none⟩

/-- The tree in which something new lies at a place. -/
def put (place : List String) (entry : Entry) (tree : Tree) : Tree :=
  ⟨fun other => if other = place then some entry else tree.entry? other⟩

/-- Whether a place is a directory. The top of the tree always is one. -/
def isDirectory (tree : Tree) (place : List String) : Bool :=
  place.isEmpty || tree.entry? place == some .directory

/-- The greatest number of bytes of a name. -/
def maxNameSize : Nat := 255

/-- The greatest number of bytes of a path as it is written. -/
def maxPathSize : Nat := 4095

/-- Takes one step from a place. -/
def step (tree : Tree) (place : List String) : Path.Component → Except FileError (List String)
  | .root => .ok []
  | .here => if tree.isDirectory place then .ok place else .error .notADirectory
  | .up => if tree.isDirectory place then .ok place.tail else .error .notADirectory
  | .name name =>
    if !tree.isDirectory place then .error .notADirectory
    else if maxNameSize < name.utf8ByteSize then .error .nameTooLong
    else if (tree.entry? (name :: place)).isSome then .ok (name :: place)
    else .error .notFound

/-- The place that some steps along a path lead to from the top of the tree. The path as a whole
is judged before the first step. -/
def follow (tree : Tree) (path : Path) (steps : List Path.Component) :
    Except FileError (List String) :=
  if path.text.contains '\x00' then .error .nullCharacter
  else if path.text.isEmpty then .error .notFound
  else if maxPathSize < path.text.utf8ByteSize then .error .nameTooLong
  else steps.foldlM tree.step []

/-- The place that a path leads to from the top of the tree. -/
def locate (tree : Tree) (path : Path) : Except FileError (List String) :=
  tree.follow path path.steps

/-- What lies at the end of a path. -/
def find (tree : Tree) (path : Path) : Except FileError Entry := do
  let place ← tree.locate path
  if tree.isDirectory place then .ok .directory
  else
    match tree.entry? place with
    | some entry => .ok entry
    | none => .error .notFound

/-- Whether anything lies at the end of a path. -/
def contains (tree : Tree) (path : Path) : Bool :=
  match tree.find path with
  | .ok _ => true
  | .error _ => false

/-- Whether a file lies at the end of a path. -/
def isFile (tree : Tree) (path : Path) : Bool :=
  match tree.find path with
  | .ok (.file _) => true
  | _ => false

/-- The contents of the file at the end of a path. -/
def read (tree : Tree) (path : Path) : Except FileError (List UInt8) := do
  match ← tree.find path with
  | .file contents => .ok contents
  | .directory => .error .isADirectory

/-- The place of a new file: its directory must be there, and no directory may be at the place
itself. -/
def placeFor (tree : Tree) (path : Path) : Except FileError (List String) := do
  let place ← tree.follow path path.steps.dropLast
  match path.steps.getLast? with
  | some (.name name) =>
    if !tree.isDirectory place then .error .notADirectory
    else if maxNameSize < name.utf8ByteSize then .error .nameTooLong
    else if tree.isDirectory (name :: place) then .error .isADirectory
    else .ok (name :: place)
  | _ => .error .isADirectory

/-- The tree in which the file at the end of a path has these contents. -/
def write (path : Path) (contents : List UInt8) (tree : Tree) : Except FileError Tree := do
  let place ← tree.placeFor path
  .ok (tree.put place (.file contents))

end Tree

end SearchKeys
