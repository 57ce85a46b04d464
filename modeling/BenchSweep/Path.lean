import BenchSweep.Text.Blank

/-!
# Paths

Paths as texts: names separated by slashes. Empty names and `.` denote nothing, except that a `.` in
front of a relative path stays there; a path keeps its spelling as far as possible.

## Main definitions

* `join`: a path resolved against another one, as text.
* `fileName?`: the last name of a path, if it is an ordinary one.
* `withFileName`: a path with its last name replaced.
* `temporary`: the name under which a file is written before it takes its place.
-/

namespace BenchSweep.Path

/-- Whether a path starts at the root. -/
def isAbsolute (path : String) : Bool :=
  path.toList.head? = some '/'

/-- A path resolved against `base`: itself if it is absolute, and otherwise appended with a slash
between the two. -/
def join (base path : String) : String :=
  if isAbsolute path || base.toList = [] then path
  else if base.toList.getLast? = some '/' then base ++ path
  else base ++ "/" ++ path

/-- The pieces of a path between its slashes, without the empty one in front of the root. -/
def pieces (path : String) : List (List Char) :=
  match Text.splitOn '/' path.toList with
  | [] :: rest => if isAbsolute path then rest else [] :: rest
  | pieces => pieces

/-- Removes the pieces at the end that denote nothing; the pieces are given in reverse. The first
piece of a relative path stays if it is `.`. -/
def trimBack (absolute : Bool) : List (List Char) → List (List Char)
  | [] => []
  | [piece] => if piece = [] ∨ (absolute ∧ piece = ['.']) then [] else [piece]
  | piece :: rest => if piece = [] ∨ piece = ['.'] then trimBack absolute rest else piece :: rest

/-- The pieces of a path in reverse, from the last one that denotes something. -/
def components (path : String) : List (List Char) :=
  trimBack (isAbsolute path) (pieces path).reverse

/-- The last name of a path; none if the path ends in `..` or denotes the root or the current
directory. -/
def fileName? (path : String) : Option String :=
  match components path with
  | [] => none
  | last :: _ => if last = ['.'] ∨ last = ['.', '.'] then none else some (String.ofList last)

/-- The text of pieces that are given in reverse. -/
def ofPieces (absolute : Bool) (pieces : List (List Char)) : String :=
  String.ofList ((if absolute then ['/'] else []) ++ List.intercalate ['/'] pieces.reverse)

/-- The path of the directory that holds the last component of a path. -/
def parent (path : String) : String :=
  ofPieces (isAbsolute path) (trimBack (isAbsolute path) ((components path).drop 1))

/-- A path with its last name replaced, or with a name appended if it has none. -/
def withFileName (path name : String) : String :=
  join (if (fileName? path).isSome then parent path else path) name

/-- The path of a temporary file beside `path`. -/
def temporary (path : String) : String :=
  withFileName path ("." ++ (fileName? path).getD "" ++ ".tmp")

end BenchSweep.Path
