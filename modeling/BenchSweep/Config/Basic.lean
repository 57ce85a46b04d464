import BenchSweep.Fault

/-!
# Configurations

What a sweep runs and where: the build steps, the benchmark with its fixed arguments, the grid of
points, the file of results, and the limits.

## Main definitions

* `Invocation`: the fixed arguments of a benchmark.
* `Config`: a configuration; every field has a default.
* `Config.check`: the first thing that keeps a configuration from being run.
-/

namespace BenchSweep

open Number (Binary64 natText)

/-- The arguments that every run of a benchmark gets before those of its point. -/
structure Invocation where
  configFile : String := "ecs.config"
  host : String := "127.0.0.1"
  port : UInt16 := 2181
  artifact : String := "KVServer.jar"
  dataDir : String := "maildir"
  deriving DecidableEq, Repr

namespace Invocation

/-- The fixed arguments in order. -/
def args (i : Invocation) : List String :=
  [i.configFile, i.host, natText i.port.toNat, i.artifact, i.dataDir]

/-- The paths among the arguments, in the order in which they are looked for. -/
def paths (i : Invocation) : List (PathRole × String) :=
  [(.configFile, i.configFile), (.artifact, i.artifact), (.dataDir, i.dataDir)]

end Invocation

/-- A configuration of a sweep. -/
structure Config where
  /-- The directory in which commands run and results are saved. -/
  workdir : Option String := none
  /-- The commands that run before the sweep, in order. -/
  build : List (List String) :=
    [["ant", "build-server-jar"], ["ant", "build-performancetest-jar"]]
  /-- The benchmark command, without the arguments of its runs. -/
  benchmark : List String := ["java", "-jar", "PerformanceTestM2.jar"]
  invocation : Invocation := {}
  grid : Grid := .default
  /-- The file of results, relative to the working directory. -/
  output : String := "performance_data.csv"
  /-- How many runs may be in flight together. -/
  parallel : UInt64 := 1
  /-- The time limit of every command, in seconds. -/
  timeoutSeconds : Option UInt64 := none
  deriving DecidableEq, Repr

/-- The first value of a grid that no benchmark can run with: a count of zero, or a ratio outside
the interval from zero to one. -/
def Grid.check (g : Grid) : Except SweepFault Unit :=
  if 0 ∈ g.servers then .error (.zeroCount .servers)
  else if 0 ∈ g.clients then .error (.zeroCount .clients)
  else
    match g.ratios.find? fun ratio => !ratio.inUnitInterval with
    | some ratio => .error (.ratioOutOfRange ratio)
    | none => .ok ()

namespace Config

/-- The first thing that keeps a configuration from being run. -/
def check (c : Config) : Except SweepFault Unit :=
  if c.benchmark = [] then .error (.emptyCommand .benchmark)
  else if [] ∈ c.build then .error (.emptyCommand .build)
  else if c.parallel = 0 then .error (.zeroCount .parallelism)
  else c.grid.check

/-- The time limit of every command. -/
def timeout (c : Config) : Option Duration :=
  c.timeoutSeconds.map fun seconds => .ofSeconds seconds.toNat

end Config

end BenchSweep
