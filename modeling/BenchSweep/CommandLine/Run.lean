import BenchSweep.CommandLine.Override
import BenchSweep.Sweep

/-!
# Running a command line

A command line asks for the version, for the plan of a sweep, or for a sweep.

## Main definitions

* `Report`: how a command line ends.
* `Sweep.planText`: what is printed instead of a sweep.
* `run`: the script of a command line.
-/

namespace BenchSweep

/-- What is printed about a sweep that is not run: its directory, its command lines and the path of
its results. -/
def Sweep.planText (s : Sweep) : String :=
  "working directory: " ++ s.dir ++ "\n"
    ++ String.join (s.plan.map fun line => joinWords line ++ "\n")
    ++ "output: " ++ s.outputPath ++ "\n"

namespace CommandLine

/-- How a command line ends. -/
inductive Report where
  /-- It printed a text. -/
  | printed (text : String)
  /-- The sweep was run, and its table was saved. -/
  | saved (table : Table)
  | refused (error : UsageError)
  | failed (failure : Failure)
  deriving DecidableEq, Repr

namespace Report

/-- The exit code of a command line. -/
def exitCode : Report → Nat
  | printed _ | saved _ => 0
  | refused _ | failed _ => 1

/-- What a command line prints. -/
def text : Report → String
  | printed text => text
  | _ => ""

/-- What went wrong, the outermost message first. -/
def messages : Report → List String
  | refused error => [error.message]
  | failed failure => failure.messages
  | _ => []

end Report

/-- The name and the version of the program. -/
def versionText : String :=
  "kvsweep 0.1\n"

/-- The flags of the program. -/
def helpText : String :=
  versionText ++ "\nOPTIONS:\n"
    ++ String.join (Flag.all.map fun f => "        " ++ f.usage ++ "\n")

/-- Runs a sweep, or prints what it would do. -/
def runSweep (s : Sweep) (dryRun : Bool) : Script Report :=
  if dryRun then .done (.printed s.planText)
  else
    (s.run (.ofLength s.config.grid.size.toNat)).bind fun (_, result) =>
      match result with
      | .ok table => .done (.saved table)
      | .error f => .done (.failed f)

/-- Runs settings; `dir` is the working directory where they name none. -/
def runSettings (readText : String → Except SystemError String) (dir : String) (s : Settings) :
    Script Report :=
  match s.config readText with
  | .error f => .done (.failed f)
  | .ok c =>
    match Sweep.ofConfig c dir with
    | .error fault => .done (.failed (.ofFault fault))
    | .ok sweep => runSweep sweep (s.has .dryRun)

/-- Runs a command line. The texts of files come from `readText`, the values of variables from
`env`, and `dir` is the working directory where none is named. -/
def run (readText : String → Except SystemError String) (env : String → Option String)
    (dir : String) (args : List String) : Script Report :=
  match Settings.read args env with
  | .error .help => .done (.printed helpText)
  | .error .version => .done (.printed versionText)
  | .error (.refused error) => .done (.refused error)
  | .ok s => runSettings readText dir s

end CommandLine

end BenchSweep
