import BenchSweep.CommandLine.Settings
import BenchSweep.Config.File

/-!
# Settings over configurations

Each value of a command line takes the place of one field of a configuration and leaves the others
alone.

## Main definitions

* `Settings.override`: a configuration with the values of a command line.
* `Settings.config`: the configuration that a command line describes.
-/

namespace BenchSweep.CommandLine

open Number (CountError)

/-- A reading of the value of a flag. -/
abbrev ValueReader (α : Type) := String → Except Failure α

/-- Any value. -/
def readAny : ValueReader String :=
  .ok

/-- The words of a value. -/
def readWords : ValueReader (List String) := fun text =>
  .ok (Text.words text)

/-- A number. -/
def readNumber {α : Type} (flag : NumberFlag) (read : List Char → Except CountError α) :
    ValueReader α := fun text =>
  (read text.toList).mapError fun e => ⟨[.numberFlag flag], .count e⟩

/-- A list of counts. -/
def readCountList (flag : ListFlag) : ValueReader (List UInt64) := fun text =>
  (readCounts text).mapError fun e => (Failure.ofList .count e).inContext (.listFlag flag)

/-- A list of ratios. -/
def readRatioList : ValueReader (List Number.Binary64) := fun text =>
  (readRatios text).mapError fun e => (Failure.ofList .numeral e).inContext (.listFlag .ratios)

namespace Settings

/-- Puts the value of a flag into a configuration, if it has one. -/
def put {α : Type} (s : Settings) (f : Flag) (read : ValueReader α) (set : α → Config → Config)
    (c : Config) : Except Failure Config :=
  match s.value? f with
  | none => .ok c
  | some text => (read text).map (set · c)

/-- A configuration with the values of a command line in place of its own. -/
def override (s : Settings) (c : Config) : Except Failure Config := do
  let c ← s.put .workdir readAny (fun v c => { c with workdir := some v }) c
  let c := if s.has .skipBuild then { c with build := [] } else c
  let c ← s.put .benchmark readWords (fun v c => { c with benchmark := v }) c
  let c ← s.put .configFile readAny (fun v c => { c with invocation.configFile := v }) c
  let c ← s.put .host readAny (fun v c => { c with invocation.host := v }) c
  let c ← s.put .port (readNumber .port Number.readPort)
    (fun v c => { c with invocation.port := v }) c
  let c ← s.put .artifact readAny (fun v c => { c with invocation.artifact := v }) c
  let c ← s.put .dataDir readAny (fun v c => { c with invocation.dataDir := v }) c
  let c ← s.put .servers (readCountList .servers) (fun v c => { c with grid.servers := v }) c
  let c ← s.put .clients (readCountList .clients) (fun v c => { c with grid.clients := v }) c
  let c ← s.put .ratios readRatioList (fun v c => { c with grid.ratios := v }) c
  let c ← s.put .output readAny (fun v c => { c with output := v }) c
  let c ← s.put .parallel (readNumber .parallel Number.readCount)
    (fun v c => { c with parallel := v }) c
  s.put .timeout (readNumber .timeout Number.readCount)
    (fun v c => { c with timeoutSeconds := some v }) c

/-- The configuration that the command line starts from: that of a file, or else the default. -/
def base (s : Settings) (readText : String → Except SystemError String) : Except Failure Config :=
  match s.value? .config with
  | some path => Config.ofFile readText path
  | none => .ok {}

/-- The configuration that a command line describes. -/
def config (s : Settings) (readText : String → Except SystemError String) :
    Except Failure Config := do
  s.override (← s.base readText)

end Settings

end BenchSweep.CommandLine
