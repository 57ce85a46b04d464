import BenchSweep.Script

/-!
# Running a command

A command line is split into a program and its leading arguments; further arguments are appended.
A command is started, and awaited with a time limit.

## Main definitions

* `Command.prepare`: the command of a command line.
* `Command.launch`: starts a command.
* `Behaviour.settle`: the ending of a command, or the failure to end in time.
* `Command.run`: starts and awaits a command.
-/

namespace BenchSweep

open Command (Ending)

/-- Words with blanks between them. -/
def joinWords (words : List String) : String :=
  String.intercalate " " words

namespace Command

/-- A command in logs. -/
def describe (c : Command) (leading args : List String) : String :=
  c.program ++ " " ++ joinWords leading ++ " " ++ joinWords args ++ " (in " ++ c.dir ++ ")"

/-- The command of a command line, with arguments appended to it. -/
def prepare (line args : List String) (dir : String) : Attempt Command :=
  match line with
  | [] => throw (.of .noProgram)
  | program :: leading => do
    let command : Command := ⟨program, leading ++ args, dir⟩
    Script.tell .debug .command (command.describe leading args)
    return command

/-- Starts a command; `target` names it in failures. -/
def launch (c : Command) (limit : Option Duration) (target : String) : Attempt Unit :=
  ExceptT.mk <| .launch c limit fun
    | some e => .done (.error ⟨[.starting target], .system e⟩)
    | none => .done (.ok ())

end Command

/-- The ending of a command, or the failure to end within its time limit. -/
def Behaviour.settle (limit : Option Duration) (target : String) :
    Behaviour → Except Failure Ending
  | .ended ending => .ok ending
  | .overran =>
    match limit with
    | some limit => .error (.ofFault (.timedOut target limit))
    | none => .error (.of .neverEnds)

/-- Waits for the only command in flight. -/
def awaitOne : Attempt Behaviour :=
  ExceptT.mk <| .await 0 fun _ behaviour => .done (.ok behaviour)

/-- Starts and awaits a command. -/
def Command.run (c : Command) (limit : Option Duration) (target : String) : Attempt Ending := do
  c.launch limit target
  Attempt.ofExcept ((← awaitOne).settle limit target)

end BenchSweep
