/-!
# Flags

The flags of the command line. A flag either takes a value or stands by itself; the value of some
flags may also come from a variable of the environment.

## Main definitions

* `Flag`: the flags.
* `Flag.name`, `Flag.ofName?`: their names.
* `Flag.variableName?`: the variable behind a flag.
-/

namespace BenchSweep.CommandLine

/-- The flags of the command line. -/
inductive Flag where
  | config
  | workdir
  | skipBuild
  | benchmark
  | configFile
  | host
  | port
  | artifact
  | dataDir
  | servers
  | clients
  | ratios
  | output
  | parallel
  | timeout
  | dryRun
  deriving DecidableEq, Repr

namespace Flag

/-- All flags. -/
def all : List Flag :=
  [config, workdir, skipBuild, benchmark, configFile, host, port, artifact, dataDir, servers,
    clients, ratios, output, parallel, timeout, dryRun]

/-- The name of a flag, without the dashes in front of it. -/
def name : Flag → String
  | config => "config"
  | workdir => "workdir"
  | skipBuild => "skip-build"
  | benchmark => "benchmark"
  | configFile => "ecs-config"
  | host => "zk-host"
  | port => "zk-port"
  | artifact => "server-artifact"
  | dataDir => "data-dir"
  | servers => "servers"
  | clients => "clients"
  | ratios => "ratios"
  | output => "output"
  | parallel => "parallel"
  | timeout => "timeout"
  | dryRun => "dry-run"

/-- The flag of a name. -/
def ofName? (name : String) : Option Flag :=
  all.find? (·.name = name)

/-- Whether a flag takes a value. -/
def takesValue : Flag → Bool
  | skipBuild | dryRun => false
  | _ => true

/-- The name of a flag in capitals, with low lines between its words. -/
def capitals (f : Flag) : String :=
  f.name.map fun c => if c = '-' then '_' else c.toUpper

/-- The variable of the environment that gives the value of a flag where the flag does not. -/
def variableName? : Flag → Option String
  | f@workdir | f@configFile | f@host | f@port | f@artifact | f@dataDir =>
    some ("KVSWEEP_" ++ f.capitals)
  | _ => none

/-- A flag in messages. -/
def usage (f : Flag) : String :=
  if f.takesValue then "--" ++ f.name ++ " <" ++ f.capitals ++ ">" else "--" ++ f.name

theorem ofName?_name (f : Flag) : ofName? f.name = some f := by
  cases f <;> decide

end Flag

end BenchSweep.CommandLine
