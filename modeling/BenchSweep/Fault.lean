import BenchSweep.Grid
import BenchSweep.Metrics
import BenchSweep.Duration
import BenchSweep.Command.Status

/-!
# Faults of a sweep

The ways in which a sweep can go wrong that a caller may want to tell apart.

## Main definitions

* `SweepFault`: the faults.
* `SweepFault.message`: their wording.
-/

namespace BenchSweep

open Number (Binary64)
open Command (Status)

/-- A number that has to be at least one. -/
inductive Counted where
  | servers
  | clients
  | parallelism
  deriving DecidableEq, Repr

/-- A number that has to be at least one, in messages. -/
def Counted.name : Counted → String
  | .servers => "server count"
  | .clients => "client count"
  | .parallelism => "parallelism"

/-- A command that a configuration names. -/
inductive CommandRole where
  | benchmark
  | build
  deriving DecidableEq, Repr

/-- A command in messages. -/
def CommandRole.name : CommandRole → String
  | .benchmark => "benchmark"
  | .build => "build"

/-- A path that has to exist before a benchmark runs. -/
inductive PathRole where
  | configFile
  | artifact
  | dataDir
  deriving DecidableEq, Repr

/-- A path in messages. -/
def PathRole.name : PathRole → String
  | .configFile => "configuration file"
  | .artifact => "server artifact"
  | .dataDir => "data directory"

/-- What went wrong in a sweep. -/
inductive SweepFault where
  | ratioOutOfRange (ratio : Binary64)
  | zeroCount (parameter : Counted)
  | emptyCommand (role : CommandRole)
  | missingPath (role : PathRole) (path : String)
  | buildFailed (step : String) (status : Status) (stderr : String)
  | benchmarkFailed (point : Point) (status : Status) (stderr : String)
  | malformedOutput (point : Point) (cause : MetricsError)
  | timedOut (target : String) (limit : Duration)
  deriving DecidableEq, Repr

/-- The end of a message about a command that did not succeed. -/
def failedWith (status : Status) (stderr : String) : String :=
  " failed with " ++ status.text ++ "; stderr:\n" ++ stderr

/-- The wording of a fault. The cause of a malformed output is told separately. -/
def SweepFault.message : SweepFault → String
  | .ratioOutOfRange ratio =>
    "ratio " ++ ratio.plainText ++ " should be a finite number within [0, 1]"
  | .zeroCount parameter => parameter.name ++ " should be at least 1"
  | .emptyCommand role => role.name ++ " command line is empty"
  | .missingPath role path => role.name ++ " not found at " ++ path
  | .buildFailed step status stderr => "build step `" ++ step ++ "`" ++ failedWith status stderr
  | .benchmarkFailed point status stderr =>
    "benchmark at " ++ point.text ++ failedWith status stderr
  | .malformedOutput point _ => "benchmark at " ++ point.text ++ " produced malformed output"
  | .timedOut target limit => target ++ " did not finish within " ++ limit.text

/-- The cause behind a fault, if there is one. -/
def SweepFault.cause? : SweepFault → Option MetricsError
  | .malformedOutput _ cause => some cause
  | _ => none

end BenchSweep
