import BenchSweep.Host.Shell.Run
import BenchSweep.Save
import BenchSweep.Script

/-!
# Machines

A machine runs scripts. It has a tree of files, a clock, and the commands in flight. Time passes
only while a script waits; then the machine goes from one moment at which a command goes on, or
reaches its time limit, to the next.

## Main definitions

* `Task`: a command in flight.
* `Machine`: files, clock, tasks and the events so far.
* `Machine.launch`, `Machine.await`: the start and the end of a command.
* `Machine.run`: runs a script.
* `systemDisk`: the files of a machine before anything else is put there.
-/

namespace BenchSweep.Host

open Command (Ending Status)

/-- A command in flight. -/
structure Task where
  /-- What the command still does. -/
  rest : Activity Ending
  /-- When it goes on. -/
  wakeTime : Nat
  /-- When it is killed. -/
  deadline : Option Nat

namespace Task

/-- Whether a task does not go on before it is killed. -/
def overruns (t : Task) : Bool :=
  match t.rest with
  | .stuck => true
  | _ => t.deadline.any (· ≤ t.wakeTime)

/-- When something becomes of a task; never, if it is stuck and has no time limit. -/
def time? (t : Task) : Option Nat :=
  if t.overruns then t.deadline else some t.wakeTime

/-- A task after some of its steps, at a given time. -/
def ofStage (stage : Activity.Stage Ending) (now : Nat) (deadline : Option Nat) : Task :=
  match stage with
  | .done ending => ⟨.done ending, now, deadline⟩
  | .pausing nanos rest => ⟨rest, now + nanos, deadline⟩
  | .stuck => ⟨.stuck, now, deadline⟩

end Task

/-- Files, clock, tasks and the events so far. -/
structure Machine where
  disk : Disk
  /-- The variables that commands are given. -/
  env : List (String × String) := []
  /-- The time in nanoseconds. -/
  clock : Nat := 0
  /-- The commands in flight, in the order in which they were started. -/
  tasks : List Task := []
  /-- The events so far, the latest first. -/
  events : List Event := []

namespace Machine

/-- The number of bytes from which on an argument is too long. -/
def argumentLimit : Nat :=
  128 * 1024

/-- The directory and the program of a command. -/
def locate (disk : Disk) (here : Location) (c : Command) :
    Except SystemError (Location × String) := do
  if (c.program :: c.dir :: c.args).any (·.toList.contains '\x00') then throw .nulInArgument
  let (dir, node) ← disk.find here c.dir
  if node ≠ .directory then throw .notDirectory
  let key ← Shell.findProgram disk dir c.program
  if (c.program :: c.args).any (argumentLimit ≤ Disk.nameLength ·) then throw .argumentsTooLong
  return (dir, key)

/-- The ending of a program, with what it wrote. -/
def endingOf (ended : Shell.Ended) (streams : Array Stream) : Ending where
  status :=
    match ended with
    | .exited status => .exited status
    | .killed signal => .signaled signal
  stdout := written 1
  stderr := written 2
where
  /-- The bytes that were written to a stream. -/
  written (i : Nat) : Text.Bytes :=
    match streams[i]? with
    | some (.collected pieces) => Raw.toBytes pieces.reverse.flatten
    | _ => []

/-- What a command does with some variables. Its standard input is empty. -/
def activity (env : List (String × String)) (c : Command) (dir : Location) (key : String) :
    Activity Ending :=
  let program := Shell.runProgram Shell.processFuel key (Raw.ofString c.program)
    (c.args.map Raw.ofString)
    (env.map fun (name, value) => (Raw.ofString name, Raw.ofString value)) dir
    [(0, 0), (1, 1), (2, 2)]
  (program.run #[.supply [], .collected [], .collected []]).bind fun (ended, streams) =>
    .done (endingOf ended streams)

/-- Starts a command: it runs up to its first pause, unless it has no time at all. -/
def launch (here : Location) (c : Command) (limit : Option Duration) (m : Machine) :
    Option SystemError × Machine :=
  match locate m.disk here c with
  | .error e => (some e, m)
  | .ok (dir, key) =>
    let deadline := limit.map (m.clock + ·.nanos)
    let whole := activity m.env c dir key
    let (disk, task) :=
      if deadline = some m.clock then (m.disk, Task.mk whole m.clock deadline)
      else
        let (disk, stage) := whole.advance m.disk
        (disk, .ofStage stage m.clock deadline)
    (none, { m with disk, tasks := m.tasks ++ [task] })

/-- The first of the tasks of which something becomes, with its number and the time. -/
def nextTask? (m : Machine) : Option (Nat × Nat × Task) :=
  m.tasks.zipIdx.foldl
    (fun best (task, i) =>
      match task.time?, best with
      | none, _ => best
      | some time, none => some (i, time, task)
      | some time, some (_, earliest, _) => if time < earliest then some (i, time, task) else best)
    none

/-- The number of pauses that are waited for at most. -/
def longestWait : Nat :=
  Number.tenTo 9

/-- Waits for one of the tasks, within a number of pauses. -/
def awaitWithin : Nat → Machine → Nat × Behaviour × Machine
  | 0, m => (0, .overran, { m with tasks := m.tasks.eraseIdx 0 })
  | pauses + 1, m =>
    match m.nextTask? with
    | none => (0, .overran, { m with tasks := m.tasks.eraseIdx 0 })
    | some (i, time, task) =>
      let m := { m with clock := time }
      if task.overruns then (i, .overran, { m with tasks := m.tasks.eraseIdx i })
      else
        match task.rest.advance m.disk with
        | (disk, .done ending) => (i, .ended ending, { m with disk, tasks := m.tasks.eraseIdx i })
        | (disk, stage) =>
          awaitWithin pauses
            { m with disk, tasks := m.tasks.set i (.ofStage stage time task.deadline) }

/-- Waits for one of the tasks: its number, and what became of it. -/
def await (m : Machine) : Nat × Behaviour × Machine :=
  m.awaitWithin longestWait

variable {α : Type}

/-- Runs a script; relative paths start at `here`. -/
def run (here : Location) : Script α → Machine → α × Machine
  | .done result, m => (result, m)
  | .note event next, m => run here next { m with events := event :: m.events }
  | .launch command limit next, m =>
    let (answer, m) := m.launch here command limit
    run here (next answer) m
  | .await others next, m =>
    let (i, behaviour, m) := m.await
    run here (next (Fin.ofNat (others + 1) i) behaviour) m
  | .cancel next, m => run here next { m with tasks := [] }
  | .probe path next, m => run here (next (m.disk.exists? here path)) m
  | .save table path next, m =>
    let (answer, disk) := table.saveOn here path m.disk
    run here (next answer) { m with disk }

end Machine

/-- The programs of the system. -/
def programNames : List String :=
  ["sh", "echo", "printf", "sleep", "true", "false", "cat", "head", "tr", "wc", "sed", "rm",
    "mkdir", "touch", "test", "["]

/-- The files of a machine before anything else is put there. -/
def systemDisk : Disk :=
  let places := [["bin"], ["usr", "bin"]]
  let base := [["tmp"], ["dev"], ["bin"], ["usr", "bin"]].foldl Disk.putDirectories ⟨[]⟩
  let devices := (base.put ["dev", "null"] .sink).put ["dev", "zero"] .zeros
  places.foldl
    (fun d place => programNames.foldl (fun d name => d.put (place ++ [name]) .program) d) devices

end BenchSweep.Host
