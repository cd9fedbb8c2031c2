/-
# Paths

A path is a text whose pieces are separated by slashes. It may start at the root or, with a
point, at the current directory. Empty pieces and single points further on lead nowhere, but
the text of a path keeps them.

## Main definitions

* `Path`: a path.
* `Path.join`: the path of a name in a directory.
* `Path.ancestors`, `Path.parent?`: the directories above a path.
* `Path.components`, `Path.same`: what a path names, and whether two name the same.
-/

namespace SearchKeys

/-- A path as it is written. -/
structure Path where
  /-- The text of the path. -/
  text : String
  deriving DecidableEq, Repr

namespace Path

/-- Where a path starts. -/
inductive Start
  /-- At the root, with a slash. -/
  | root
  /-- At the current directory, with a point. -/
  | here
  /-- With its first piece. -/
  | unmarked
  deriving DecidableEq, Repr

/-- What a part of a path stands for. -/
inductive Component
  /-- The root of all files. -/
  | root
  /-- The directory itself. -/
  | here
  /-- The directory above. -/
  | up
  /-- An entry of the directory. -/
  | name (text : String)
  deriving DecidableEq, Repr

/-- The start of a path and the pieces behind it. -/
def layout (path : Path) : Start × List (List Char) :=
  match path.text.toList with
  | '/' :: rest => (.root, rest.splitOnP (· == '/'))
  | ['.'] => (.here, [])
  | '.' :: '/' :: rest => (.here, rest.splitOnP (· == '/'))
  | text => (.unmarked, text.splitOnP (· == '/'))

/-- Whether a piece leads nowhere. -/
def isSilent (piece : List Char) : Bool :=
  piece.isEmpty || piece == ['.']

/-- The path with a start and pieces. -/
def ofLayout (start : Start) (pieces : List (List Char)) : Path :=
  let joined := ['/'].intercalate pieces
  let text := match start with
    | .root => '/' :: joined
    | .here => if pieces.isEmpty then ['.'] else '.' :: '/' :: joined
    | .unmarked => joined
  ⟨String.ofList text⟩

/-- The path of a name in a directory. -/
def join (directory : Path) (name : String) : Path :=
  let text := directory.text.toList
  let separator := if text.isEmpty || text.getLast? == some '/' then "" else "/"
  ⟨directory.text ++ separator ++ name⟩

/-! ### Directories above -/

/-- The paths that some pieces, given latest first, and their first parts lead to, the longest
first. Each ends in a piece that leads somewhere. The current directory lies in the directory
with the empty path. -/
def walk (start : Start) : List (List Char) → List Path
  | [] =>
    match start with
    | .root => [ofLayout .root []]
    | .here => [ofLayout .here [], ofLayout .unmarked []]
    | .unmarked => [ofLayout .unmarked []]
  | piece :: rest =>
    if isSilent piece then walk start rest
    else ofLayout start (piece :: rest).reverse :: walk start rest

/-- The path itself and the directories above it, nearest first. -/
def ancestors (path : Path) : List Path :=
  path :: (walk path.layout.1 path.layout.2.reverse).tail

/-- The directory above a path; there is none above the root and above the empty path. -/
def parent? (path : Path) : Option Path :=
  path.ancestors.tail.head?

/-! ### Names -/

/-- What a piece stands for. -/
def Component.ofPiece (piece : List Char) : Component :=
  if isSilent piece then here
  else if piece = ['.', '.'] then up
  else name (String.ofList piece)

/-- The start of a path as a component. -/
def Start.components : Start → List Component
  | root => [.root]
  | here => [.here]
  | unmarked => []

/-- All steps along a path, those that lead nowhere among them. -/
def steps (path : Path) : List Component :=
  path.layout.1.components ++ path.layout.2.map .ofPiece

/-- What a path names: its start and the pieces that lead somewhere. -/
def components (path : Path) : List Component :=
  path.layout.1.components ++ (path.layout.2.map .ofPiece).filter (· != .here)

/-- Whether two paths are the same component by component. -/
def same (first second : Path) : Bool :=
  first.components == second.components

end Path

end SearchKeys
