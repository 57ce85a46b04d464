import BenchSweep.CommandLine.Run
import BenchSweep.Host.Machine
import BenchSweep.LogFilter

/-!
# The program

The program runs its command line on a machine. The files of the machine are those below the current
directory and below the directory of the sweep; what a sweep changes there is written back at its
end. What the command line prints goes to standard output, the log and the errors go to standard
error.

## Main definitions

* `loadTree`, `storeTree`: the files of a machine, and those of the system.
* `main`: the program.
-/

namespace BenchSweep.Program

open CommandLine (Flag Report Settings)

/-- The number of directories below each other that are read at most. -/
def deepestTree : Nat :=
  32

/-- The location of an absolute path. -/
def locationOf (path : String) : Location :=
  Disk.namesOf path

/-- The path of a location. -/
def pathOf (l : Location) : String :=
  "/" ++ "/".intercalate l

/-- Adds an entry of a directory to a disk, with all that is below it. -/
def loadEntry : Nat → IO.FS.DirEntry → Location → Disk → IO Disk
  | 0, _, _, disk => return disk
  | depth + 1, entry, l, disk => do
    if ← entry.path.isDir then
      let entries ← entry.path.readDir
      entries.foldlM
        (fun disk inner => loadEntry depth inner (l ++ [inner.fileName]) disk)
        (disk.putDirectories l)
    else return disk.putFile l (← IO.FS.readBinFile entry.path).toList

/-- Adds what is below a location of the system to a disk. -/
def loadTree (l : Location) (disk : Disk) : IO Disk := do
  let entry : IO.FS.DirEntry := ⟨pathOf l.dropLast, l.getLastD "."⟩
  if ← entry.path.pathExists then loadEntry deepestTree entry l disk else return disk

/-- Writes an entry of a disk to the system. -/
def storeEntry (l : Location) : Node → IO Unit
  | .directory => IO.FS.createDirAll (pathOf l)
  | .file content => do
    IO.FS.createDirAll (pathOf l.dropLast)
    IO.FS.writeBinFile (pathOf l) ⟨content.toArray⟩
  | _ => return

/-- Removes an entry of a disk from the system. -/
def removeEntry (l : Location) : Node → IO Unit
  | .directory => IO.FS.removeDir (pathOf l)
  | .file _ => IO.FS.removeFile (pathOf l)
  | _ => return

/-- The entries of a disk that another one has not, or has as a file instead of a directory or the
other way round. The inner ones come first. -/
def goneEntries (before after : Disk) : List (Location × Node) :=
  let isGone (e : Location × Node) : Bool :=
    (after.get? e.1).all fun node => decide (node = .directory) != decide (e.2 = .directory)
  (before.entries.filter isGone).mergeSort fun a b => b.1.length ≤ a.1.length

/-- Changes the files of the system from those of one disk to those of another one. -/
def storeTree (before after : Disk) : IO Unit := do
  for (l, node) in goneEntries before after do
    removeEntry l node
  for (l, node) in after.entries do
    if before.get? l ≠ some node then storeEntry l node

/-- The variables of the environment that a command line looks at, and the one of the log. -/
def readVariables : IO (List (String × String)) :=
  (LogFilter.variableName :: Flag.all.filterMap Flag.variableName?).filterMapM fun name => do
    return (← IO.getEnv name).map (name, ·)

/-- The working directory where none is named: three levels above the program. -/
def defaultDir : IO String := do
  let program := locationOf (← IO.appPath).toString
  return pathOf (program.take (program.length - 3))

/-- The location of the sweep that a command line describes, if it describes one. -/
def sweepAt? (env : String → Option String) (dir : String) (disk : Disk) (here : Location)
    (args : List String) : Option Location := do
  let s ← (Settings.read args env).toOption
  let c ← (s.config (disk.readText here)).toOption
  let dir := c.workdir.getD dir
  return if Path.isAbsolute dir then locationOf dir else here ++ locationOf dir

/-- Writes the errors of a report. -/
def writeErrors (report : Report) : IO Unit := do
  match report.messages with
  | [] => return
  | message :: causes =>
    IO.eprintln ("error: " ++ message)
    for cause in causes do
      IO.eprintln ("caused by: " ++ cause)

end BenchSweep.Program

open BenchSweep Program

/-- Runs a command line. -/
def main (args : List String) : IO UInt32 := do
  let env ← readVariables
  let here := locationOf (← IO.currentDir).toString
  let dir ← defaultDir
  let disk ← loadTree here Host.systemDisk
  let disk ←
    match sweepAt? (env.lookup ·) dir disk here args with
    | some l => if here.isPrefixOf l then pure disk else loadTree l disk
    | none => pure disk
  let script := CommandLine.run (disk.readText here) (env.lookup ·) dir args
  let (report, machine) := Host.Machine.run here script { disk, env }
  let filter := LogFilter.ofEnv (env.lookup ·)
  for line in filter.lines machine.events.reverse do
    IO.eprintln line
  IO.print report.text
  writeErrors report
  storeTree disk machine.disk
  return report.exitCode.toUInt32
