import BenchSweep.Host.Shell.Reader
import BenchSweep.Host.Stream
import BenchSweep.Number.Power

/-!
# The state of a shell

## Main definitions

* `State`: variables, parameters, streams and options.
* `Leave`: the ways in which a command does not go on to the next one.
* `Session`: the steps of a shell.
-/

namespace BenchSweep.Host.Shell

/-- The state of a shell. -/
structure State where
  name : Raw
  params : List Raw := []
  vars : List (Raw × Raw) := []
  /-- The names of the variables that programs are given. -/
  exported : List Raw := []
  functions : List (Raw × Tree) := []
  here : Location
  /-- The numbers of open streams, and their places in the table of streams. -/
  streams : List (Nat × Nat)
  status : Nat := 0
  line : Nat := 1
  /-- Whether a command that fails ends the shell. -/
  stopsOnFailure : Bool := false
  /-- Whether a parameter that is not set ends the shell. -/
  refusesUnset : Bool := false
  /-- Whether the status of the present command is looked at, so that it may fail. -/
  isCondition : Bool := false
  /-- The status of the latest command whose output was put into a word. -/
  substituted : Option Nat := none
  /-- What is run when a signal comes, by its number; zero stands for the end of the shell. -/
  traps : List (Nat × Raw) := []
  /-- The names of the variables that cannot be set any more. -/
  readOnly : List Raw := []
  /-- Whether patterns in words stand for themselves. -/
  keepsPatterns : Bool := false
  /-- The status of the latest command that was started without waiting for it. -/
  background : Option Nat := none
  /-- Whether commands are shown before they run. -/
  showsCommands : Bool := false
  /-- How many loops are around the present command. -/
  loops : Nat := 0
  /-- In a function, the variables that it has for itself, with the values that they had before. -/
  locals : Option (List (Raw × Option Raw)) := none

/-- The ways in which a command does not go on to the next one. -/
inductive Leave where
  | exited (status : Nat)
  | killed (signal : Nat)
  | breaking (loops : Nat)
  | continuing (loops : Nat)
  | returned (status : Nat)
  deriving DecidableEq, Repr

/-- The place of a stream that is not open: one behind the end of every table. -/
def absentPlace : Nat :=
  Number.tenTo 9

/-- The steps of a shell. -/
abbrev Session (α : Type) := ExceptT Leave (StateT State Proc) α

/-- The process number of a shell. -/
def ownNumber : Raw :=
  Raw.ofString "4242"

/-- The process number of the latest command that a shell did not wait for. -/
def backgroundNumber : Raw :=
  Raw.ofString "4243"

namespace Session

/-- Steps of a process as steps of a shell. -/
def ofProc {α : Type} (p : Proc α) : Session α :=
  ExceptT.lift (StateT.lift p)

/-- The place of a stream in the table; a stream that is not open has a place behind its end. -/
def streamOf (number : Nat) : Session Nat := do
  return ((← get).streams.lookup number).getD absentPlace

/-- The value of a variable. -/
def valueOf? (name : Raw) : Session (Option Raw) := do
  return (← get).vars.lookup name

/-- Writes a message of the shell to standard error. -/
def complain (message : Raw) : Session Unit := do
  let s ← get
  let errors ← streamOf 2
  ofProc (Proc.write errors
    (s.name ++ Raw.ofString ": " ++ Raw.ofNat s.line ++ Raw.ofString ": " ++ message ++ ['\n']))

/-- Writes a message and ends the shell with status 2. -/
def abort {α : Type} (message : Raw) : Session α := do
  complain message
  throw (.exited 2)

/-- Sets a variable. -/
def setVariable (name value : Raw) : Session Unit := do
  if (← get).readOnly.contains name then abort (name ++ Raw.ofString ": is read only")
  else modify fun s => { s with vars := (name, value) :: s.vars.filter (·.1 ≠ name) }

/-- What a command of the shell is given when it starts. -/
def callOf (name : Raw) (args : List Raw) : Session Call := do
  let s ← get
  return {
    label := s.name ++ Raw.ofString ": " ++ Raw.ofNat s.line ++ Raw.ofString ": " ++ name
    args
    here := s.here
    input := ← streamOf 0
    output := ← streamOf 1
    errors := ← streamOf 2 }

end Session

end BenchSweep.Host.Shell
