import BenchSweep.Host.Tool.Filters

/-!
# Tools on files

Tools that add or remove files and directories, or let time pass: `rm`, `mkdir`, `touch` and
`sleep`.

## Main definitions

* `rm`, `mkdir`, `touch`, `sleep`: the tools.
-/

namespace BenchSweep.Host.Tool

/-- Removes a directory and all that is below it. -/
def removeTree (d : Disk) (l : Location) : Disk :=
  ⟨d.entries.filter fun e => !l.isPrefixOf e.1⟩

/-- The entries of a directory with what is told when they are removed, those below an entry before
it; `path` is the path of the directory. -/
def removalNotes (d : Disk) (l : Location) (path : Raw) : List Raw :=
  let notes := (d.below l).map fun (place, node) =>
    let name := path ++ place.flatMap fun name => '/' :: Raw.ofString name
    (name, Raw.ofString (if node = .directory then "removed directory " else "removed ")
      ++ apostrophes name)
  let last := [Char.ofNat 255]
  (notes.mergeSort fun a b => Raw.isLe (a.1 ++ last) (b.1 ++ last)).map Prod.snd

/-- Whether a path ends in one of the two names that every directory has. -/
def endsInDots (path : Raw) : Bool :=
  match (Disk.namesOf (Raw.toText path)).getLast? with
  | some "." | some ".." => true
  | _ => false

/-- Removes files. -/
def rm (c : Call) : Proc Nat := do
  let set : FlagSet := {
    plain := "rRfdiIv".toList
    long := [("recursive", 'r'), ("force", 'f'), ("dir", 'd'), ("verbose", 'v')] }
  match set.read c.args with
  | .error e => misuse c e.message 1
  | .ok (flags, operands) =>
    let force := hasFlag flags 'f'
    let recursive := hasFlag flags 'r' || hasFlag flags 'R'
    let tell (r : Raw) : Proc Unit := if hasFlag flags 'v' then c.say (r ++ ['\n']) else pure ()
    if operands = [] && !force then misuse c (Raw.ofString "missing operand") 1
    else
      let mut status := 0
      for path in operands do
        let disk ← Proc.disk
        let about := Raw.ofString "cannot remove " ++ apostrophes path
        match disk.find c.here (Raw.toText path) with
        | .error e =>
          if !(force && (e = .noEntry || e = .notDirectory)) then
            c.complainOf about e
            status := 1
        | .ok (l, .directory) =>
          if recursive && endsInDots path then
            c.complain (Raw.ofString "refusing to remove '.' or '..' directory: skipping "
              ++ apostrophes path)
            status := 1
          else if recursive then
            for note in removalNotes disk l path do
              tell note
            Proc.setDisk (removeTree disk l)
            tell (Raw.ofString "removed directory " ++ apostrophes path)
          else if hasFlag flags 'd' then
            if disk.names l = [] then
              Proc.setDisk (disk.remove l)
              tell (Raw.ofString "removed directory " ++ apostrophes path)
            else
              c.complainOf about .notEmpty
              status := 1
          else
            c.complainOf about .isDirectory
            status := 1
        | .ok (l, _) =>
          Proc.setDisk (disk.remove l)
          tell (Raw.ofString "removed " ++ apostrophes path)
      return status

/-- A path up to a number of its names. -/
def pathUpTo (path : String) (n : Nat) : Raw :=
  let names := (Disk.namesOf path).take n
  Raw.ofString ((if Path.isAbsolute path then "/" else "") ++ String.intercalate "/" names)

/-- Makes a directory: the tree with it and its path, or why not and for which path. -/
def makeDirectory (d : Disk) (here : Location) (path : Raw) :
    Except (Raw × SystemError) (Disk × List Raw) :=
  match d.resolve here (Raw.toText path) with
  | .error e => .error (path, e)
  | .ok l => if (d.get? l).isSome then .error (path, .exists) else .ok (d.put l .directory, [path])

/-- Makes the directories that names lead through from a location, after `done` earlier names. -/
def makeFrom (d : Disk) (path : String) :
    Nat → Location → List String → Except (Raw × SystemError) (Disk × List Raw)
  | _, _, [] => .ok (d, [])
  | done, l, name :: names =>
    let here := pathUpTo path (done + 1)
    match d.step l name with
    | .error e => .error (here, e)
    | .ok next =>
      match d.get? next with
      | none =>
        (makeFrom (d.put next .directory) path (done + 1) next names).map fun (d, made) =>
          (d, here :: made)
      | some .directory => makeFrom d path (done + 1) next names
      | some _ => .error (here, if names = [] then .exists else .notDirectory)

/-- Makes a directory and those above it. -/
def makeDirectories (d : Disk) (here : Location) (path : Raw) :
    Except (Raw × SystemError) (Disk × List Raw) :=
  let text := Raw.toText path
  if path = [] then .error (path, .noEntry)
  else makeFrom d text 0 (Disk.startOf here text) (Disk.namesOf text)

/-- Makes directories. -/
def mkdir (c : Call) : Proc Nat := do
  let set : FlagSet := {
    plain := ['p', 'v']
    valued := ['m']
    long := [("parents", 'p'), ("verbose", 'v'), ("mode", 'm')] }
  match set.read c.args with
  | .error e => misuse c e.message 1
  | .ok (flags, operands) =>
    if operands = [] then misuse c (Raw.ofString "missing operand") 1
    else
      let mut status := 0
      for path in operands do
        let make := if hasFlag flags 'p' then makeDirectories else makeDirectory
        match make (← Proc.disk) c.here path with
        | .ok (disk, made) =>
          Proc.setDisk disk
          if hasFlag flags 'v' then
            for r in made do
              c.say (c.label ++ Raw.ofString ": created directory " ++ apostrophes r ++ ['\n'])
        | .error (r, e) =>
          c.complainOf (Raw.ofString "cannot create directory " ++ quoteRaw r) e
          status := 1
      return status

/-- Makes files that are not there. -/
def touch (c : Call) : Proc Nat := do
  let set : FlagSet := {
    plain := ['a', 'm', 'c', 'f', 'h']
    valued := ['d', 't', 'r']
    long := [("no-create", 'c'), ("date", 'd'), ("reference", 'r'), ("time", 'd')] }
  match set.read c.args with
  | .error e => misuse c e.message 1
  | .ok (flags, operands) =>
    if operands = [] then misuse c (Raw.ofString "missing file operand") 1
    else
      let mut status := 0
      for path in operands do
        let disk ← Proc.disk
        let text := Raw.toText path
        let about := Raw.ofString "cannot touch " ++ apostrophes path
        match disk.find c.here text with
        | .ok _ => pure ()
        | .error .noEntry =>
          if !hasFlag flags 'c' then
            match disk.create c.here text with
            | .ok (_, disk) => Proc.setDisk disk
            | .error .isDirectory =>
              c.complainOf (Raw.ofString "setting times of " ++ apostrophes path) .noEntry
              status := 1
            | .error e =>
              c.complainOf about e
              status := 1
        | .error e =>
          c.complainOf about e
          status := 1
      return status

/-- The span that an operand of `sleep` asks for; none if it does not end. -/
def sleepSpan (r : Raw) : Except Unit (Option Nat) :=
  let (number, unit) : Raw × Nat :=
    match r.getLast? with
    | some 's' => (r.dropLast, 1)
    | some 'm' => (r.dropLast, 60)
    | some 'h' => (r.dropLast, 3600)
    | some 'd' => (r.dropLast, 86400)
    | _ => (r, 1)
  match Number.Numeral.read? number with
  | some ⟨false, .decimal d⟩ =>
    if d.coefficient = 0 then .ok (some 0)
    else if 20 < d.exponent then .ok none
    else
      let scaled := d.coefficient * unit * Number.tenTo 9
      match d.exponent with
      | .ofNat e => .ok (some (scaled * Number.tenTo e))
      | .negSucc e => if 400 < e then .ok (some 0) else .ok (some (scaled / Number.tenTo (e + 1)))
  | some ⟨false, .infinity⟩ => .ok none
  | _ => .error ()

/-- Lets time pass. -/
def sleep (c : Call) : Proc Nat := do
  match ({ plain := [] } : FlagSet).read c.args with
  | .error e => misuse c e.message 1
  | .ok (_, []) => misuse c (Raw.ofString "missing operand") 1
  | .ok (_, operands) =>
    match operands.find? fun r => !(sleepSpan r).toBool with
    | some r => misuse c (Raw.ofString "invalid time interval " ++ quoteRaw r) 1
    | none =>
      for r in operands do
        match sleepSpan r with
        | .ok (some nanos) => Proc.pause nanos
        | _ => Proc.stuck
      return 0

end BenchSweep.Host.Tool
