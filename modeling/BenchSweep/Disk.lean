import BenchSweep.Path
import BenchSweep.SystemError
import BenchSweep.Text.Utf8

/-!
# Disks

A tree of directories and files, without links. An entry stands at a location, which is the list of
names from the root; a path is resolved to a location by following its names through existing
directories.

## Main definitions

* `Location`, `Node`, `Disk`: places, what stands there, and the whole tree.
* `Disk.get?`, `Disk.put`, `Disk.remove`: the entry at a place.
* `Disk.resolve`: the place that a path denotes.
* `Disk.create`, `Disk.append`, `Disk.sync`, `Disk.rename`, `Disk.unlink`, `Disk.readText`: file
  operations.
-/

namespace BenchSweep

open Text (Bytes)

/-- The names from the root to an entry. -/
abbrev Location := List String

/-- What stands at a location. -/
inductive Node where
  | directory
  | file (content : Bytes)
  /-- A program of the system. -/
  | program
  /-- A device that is empty to read and takes everything. -/
  | sink
  /-- A device that gives zeros without end. -/
  | zeros
  deriving DecidableEq, Repr

/-- The entries of a tree, each at its location. -/
structure Disk where
  entries : List (Location × Node)
  deriving DecidableEq, Repr

namespace Disk

/-- The entry at a location. -/
def get? (d : Disk) (l : Location) : Option Node :=
  d.entries.lookup l

/-- The tree without the entry at a location. -/
def remove (d : Disk) (l : Location) : Disk :=
  ⟨d.entries.filter fun e => e.1 ≠ l⟩

/-- The tree with an entry at a location. -/
def put (d : Disk) (l : Location) (n : Node) : Disk :=
  ⟨(l, n) :: (d.remove l).entries⟩

/-- Whether a directory stands at a location. -/
def isDirectory (d : Disk) (l : Location) : Bool :=
  d.get? l = some .directory

/-- The tree with a directory at a location and at every location above it. -/
def putDirectories (d : Disk) (l : Location) : Disk :=
  (List.range (l.length + 1)).foldl
    (fun d n => if (d.get? (l.take n)).isSome then d else d.put (l.take n) .directory) d

/-- The tree with a file, and with the directories above it. -/
def putFile (d : Disk) (l : Location) (content : Bytes) : Disk :=
  (d.putDirectories l.dropLast).put l (.file content)

/-- The entries below a location, each with its names from there. -/
def below (d : Disk) (l : Location) : List (Location × Node) :=
  d.entries.filterMap fun (place, node) =>
    if l.isPrefixOf place && place ≠ l then some (place.drop l.length, node) else none

/-- The names in a directory. -/
def names (d : Disk) (l : Location) : List String :=
  (d.below l).filterMap fun (place, _) =>
    match place with
    | [name] => some name
    | _ => none

/-! ### Resolution of paths -/

/-- The longest name in bytes. -/
def longestName : Nat :=
  255

/-- The longest path in bytes. -/
def longestPath : Nat :=
  4095

/-- The number of bytes of a name. -/
def nameLength (name : String) : Nat :=
  Text.byteLength name.toList

/-- The entry that a name denotes in a directory: its location, if the name is not too long. -/
def step (d : Disk) (at_ : Location) (name : String) : Except SystemError Location :=
  if !d.isDirectory at_ then
    .error (if (d.get? at_).isSome then .notDirectory else .noEntry)
  else if name = "." then .ok at_
  else if name = ".." then .ok at_.dropLast
  else if longestName < nameLength name then .error .nameTooLong
  else .ok (at_ ++ [name])

/-- Follows names from a location. -/
def follow (d : Disk) : Location → List String → Except SystemError Location
  | at_, [] => .ok at_
  | at_, name :: names =>
    match d.step at_ name with
    | .error e => .error e
    | .ok next => follow d next names

/-- The names of a path. -/
def namesOf (path : String) : List String :=
  ((Path.pieces path).filter (· ≠ [])).map String.ofList

/-- The location at which the names of a path start. -/
def startOf (here : Location) (path : String) : Location :=
  if Path.isAbsolute path then [] else here

/-- A path that no operation takes, and why. -/
def pathError? (path : String) : Option SystemError :=
  if '\x00' ∈ path.toList then some .nulInPath
  else if path = "" then some .noEntry
  else if longestPath < nameLength path then some .nameTooLong
  else none

/-- Whether a path ends in a slash, so that it can only denote a directory. -/
def endsInSlash (path : String) : Bool :=
  path.toList.getLast? = some '/'

/-- The last name of a path, if it is an ordinary one. -/
def lastName? (path : String) : Option String :=
  match (namesOf path).getLast? with
  | none | some "." | some ".." => none
  | some name => some name

/-- The directory that holds the last name of a path. -/
def resolveParent (d : Disk) (here : Location) (path : String) : Except SystemError Location :=
  match pathError? path with
  | some e => .error e
  | none =>
    match d.follow (startOf here path) (namesOf path).dropLast with
    | .error e => .error e
    | .ok parent =>
      if d.isDirectory parent then .ok parent
      else .error (if (d.get? parent).isSome then .notDirectory else .noEntry)

/-- The location that a path denotes, whether or not something stands there. -/
def resolve (d : Disk) (here : Location) (path : String) : Except SystemError Location :=
  match d.resolveParent here path with
  | .error e => .error e
  | .ok parent => d.follow parent (namesOf path).getLast?.toList

/-- What a path denotes. -/
def find (d : Disk) (here : Location) (path : String) : Except SystemError (Location × Node) :=
  match d.resolve here path with
  | .error e => .error e
  | .ok l =>
    match d.get? l with
    | none => .error .noEntry
    | some node =>
      if endsInSlash path && node ≠ .directory then .error .notDirectory else .ok (l, node)

/-- Whether a path denotes something. -/
def exists? (d : Disk) (here : Location) (path : String) : Bool :=
  (d.find here path).toBool

/-! ### Operations on files -/

/-- The location of a file to write under a path, and the tree in which it is there and empty. -/
def create (d : Disk) (here : Location) (path : String) : Except SystemError (Location × Disk) :=
  match d.resolve here path with
  | .error e => .error e
  | .ok l =>
    match d.get? l with
    | some .directory => .error .isDirectory
    | some (.file _) | some .program =>
      if endsInSlash path then .error .notDirectory else .ok (l, d.put l (.file []))
    | some _ => if endsInSlash path then .error .notDirectory else .ok (l, d)
    | none => if endsInSlash path then .error .isDirectory else .ok (l, d.put l (.file []))

/-- The tree with bytes added at the end of a file. -/
def append (d : Disk) (l : Location) (bytes : Bytes) : Disk :=
  match d.get? l with
  | some (.file content) => d.put l (.file (content ++ bytes))
  | _ => d

/-- Makes what was written to a file durable; devices do not take part in this. -/
def sync (d : Disk) (l : Location) : Except SystemError Unit :=
  match d.get? l with
  | some .sink | some .zeros => .error .invalid
  | _ => .ok ()

/-- Removes a file. -/
def unlink (d : Disk) (here : Location) (path : String) : Except SystemError Disk :=
  match d.find here path with
  | .error e => .error e
  | .ok (_, .directory) => .error .isDirectory
  | .ok (l, _) => .ok (d.remove l)

/-- Moves a file to another path, in place of a file that stands there. A path without an ordinary
last name is busy, and one that ends in a slash can only denote a directory. -/
def rename (d : Disk) (here : Location) (source target : String) : Except SystemError Disk := do
  let sourceParent ← d.resolveParent here source
  let targetParent ← d.resolveParent here target
  match lastName? source, lastName? target with
  | some sourceName, some targetName =>
    let sourceAt ← d.step sourceParent sourceName
    let targetAt ← d.step targetParent targetName
    match d.get? sourceAt with
    | none => throw .noEntry
    | some .directory => throw .isDirectory
    | some node =>
      if endsInSlash source || endsInSlash target then throw .notDirectory
      else if d.isDirectory targetAt then throw .isDirectory
      else return (d.remove sourceAt).put targetAt node
  | _, _ => throw .busy

/-- The text that a file holds. -/
def readText (d : Disk) (here : Location) (path : String) : Except SystemError String :=
  match d.find here path with
  | .error e => .error e
  | .ok (_, .directory) => .error .isDirectory
  | .ok (_, .file content) =>
    match Text.decode? content with
    | some text => .ok (String.ofList text)
    | none => .error .notText
  | .ok _ => .ok ""

end Disk

end BenchSweep
