import BenchSweep.Command.Run
import BenchSweep.Config.Basic

/-!
# Benchmark runs

One run of the benchmark at a point: the command with the fixed arguments and those of the point.
The run gives a row if it ends in time, succeeds, and prints the metrics.

## Main definitions

* `Config.argsAt`: the arguments at a point.
* `startAt`: starts the benchmark at a point.
* `Outcome`, `settleAt`: what a run gives, and what is told about it.
* `runPoint`: one run by itself.
-/

namespace BenchSweep

open Command (prepare)

/-- The arguments of the benchmark at a point. -/
def Config.argsAt (c : Config) (p : Point) : List String :=
  c.invocation.args ++ p.args

/-- The command line of the benchmark at a point. -/
def Config.lineAt (c : Config) (p : Point) : List String :=
  c.benchmark ++ c.argsAt p

/-- What a run gives. -/
abbrev Outcome := Except Failure Row

/-- Starts the benchmark at a point. -/
def startAt (c : Config) (dir : String) (p : Point) : Attempt Unit := do
  let command ← prepare c.benchmark (c.argsAt p) dir
  command.launch c.timeout p.text

/-- What is told about a run that ended: what it wrote to standard error, if it succeeded. -/
def eventsAt (p : Point) : Behaviour → List Event
  | .ended ending =>
    if ending.isSuccess && ending.stderr ≠ [] then
      [⟨.debug, .benchmark, p.text ++ " stderr:\n" ++ ending.errorText⟩]
    else []
  | .overran => []

/-- The row of a run at a point, or its failure. -/
def settleAt (c : Config) (p : Point) (b : Behaviour) : Outcome := do
  let ending ← b.settle c.timeout p.text
  if ending.isSuccess then
    match Metrics.read ending.stdout with
    | .ok metrics => .ok ⟨p, metrics⟩
    | .error e => .error (.ofFault (.malformedOutput p e))
  else
    .error (.ofFault (.benchmarkFailed p ending.status ending.errorText))

/-- Tells of events. -/
def tellAll {α : Type} (events : List Event) (next : Script α) : Script α :=
  events.foldr .note next

/-- Runs the benchmark at a point. -/
def runPoint (c : Config) (dir : String) (p : Point) : Attempt Row := do
  startAt c dir p
  let behaviour ← awaitOne
  ExceptT.mk (tellAll (eventsAt p behaviour) (.done (settleAt c p behaviour)))

end BenchSweep
