import BenchSweep.Build
import BenchSweep.Path
import BenchSweep.Window

/-!
# Sweeps

A sweep has four phases: the build steps, a look at the paths that the benchmark needs, the runs at
all points, and the saving of the table. A phase starts only if the one before it succeeded.

## Main definitions

* `Sweep`: a configuration that can be run, and its working directory.
* `Sweep.plan`: the command lines of all runs.
* `Sweep.run`: the four phases.
-/

namespace BenchSweep

/-- Looks for paths below a directory, up to the first that is missing. -/
def checkPaths (dir : String) : List (PathRole × String) → Attempt Unit
  | [] => pure ()
  | (role, path) :: rest =>
    ExceptT.mk <| .probe (Path.join dir path) fun found =>
      if found then (checkPaths dir rest).run
      else .done (.error (.ofFault (.missingPath role (Path.join dir path))))

/-- A configuration that can be run, and its working directory. -/
structure Sweep where
  config : Config
  dir : String
  deriving DecidableEq, Repr

namespace Sweep

/-- The sweep of a configuration; `dir` is the working directory where it names none. -/
def ofConfig (c : Config) (dir : String) : Except SweepFault Sweep :=
  c.check.map fun _ => ⟨c, c.workdir.getD dir⟩

/-- The path of the results. -/
def outputPath (s : Sweep) : String :=
  Path.join s.dir s.config.output

/-- The command lines of all runs, in order. -/
def plan (s : Sweep) : List (List String) :=
  s.config.grid.points.map s.config.lineAt

/-- The size of a grid in logs. -/
def gridText (g : Grid) : String :=
  "sweeping " ++ Number.countText g.size ++ " points (" ++ Number.natText g.servers.length
    ++ " servers x " ++ Number.natText g.clients.length ++ " clients x "
    ++ Number.natText g.ratios.length ++ " ratios)"

/-- Runs the benchmark at all points: the progress that was made, and the table. -/
def runPoints (s : Sweep) (progress : Progress) : Script (Progress × Except Failure Table) := do
  Script.tell .info .sweep (gridText s.config.grid)
  Window.run s.config s.dir s.config.parallel.toNat (.start progress s.config.grid.points)

/-- What comes before the runs: the build steps, and the look at the paths. -/
def prepare (s : Sweep) : Attempt Unit := do
  Script.tell .info .sweep ("working directory: " ++ s.dir)
  build s.config.build s.dir s.config.timeout
  checkPaths s.dir s.config.invocation.paths

/-- Saves a table. -/
def save (s : Sweep) (table : Table) : Attempt Table :=
  ExceptT.mk <| .save table s.outputPath fun
    | .error f => .done (.error (f.inContext (.saving s.outputPath)))
    | .ok _ =>
      .note ⟨.info, .sweep,
          Number.natText table.size ++ " rows saved to " ++ s.outputPath⟩
        (.done (.ok table))

/-- Runs a sweep: the progress that was made, and the table that was saved. -/
def run (s : Sweep) (progress : Progress) : Script (Progress × Except Failure Table) := do
  match ← s.prepare.run with
  | .error f => return (progress, .error f)
  | .ok _ =>
    let (progress, result) ← s.runPoints progress
    match result with
    | .error f => return (progress, .error f)
    | .ok table => return (progress, ← (s.save table).run)

end Sweep

end BenchSweep
