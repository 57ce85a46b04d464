import BenchSweep.Config.Basic
import BenchSweep.Json.Writer

/-!
# Configurations as JSON texts: writing

## Main definitions

* `Config.toJson`: the text of a configuration, with every field, in order and without blanks.
-/

namespace BenchSweep

open Json (writeList writeMember writeObject writeOption writeString)
open Number (Binary64 decimal)

/-- A count. -/
def writeCount (n : UInt64) : List Char :=
  decimal n.toNat

/-- A ratio. -/
def writeRatio (x : Binary64) : List Char :=
  x.jsonText.toList

/-- The text of an invocation. -/
def Invocation.write (i : Invocation) : List Char :=
  writeObject
    [writeMember "config_file" (writeString i.configFile),
      writeMember "zk_host" (writeString i.host),
      writeMember "zk_port" (decimal i.port.toNat),
      writeMember "server_artifact" (writeString i.artifact),
      writeMember "data_dir" (writeString i.dataDir)]

/-- The text of a grid. -/
def Grid.write (g : Grid) : List Char :=
  writeObject
    [writeMember "servers" (writeList writeCount g.servers),
      writeMember "clients" (writeList writeCount g.clients),
      writeMember "ratios" (writeList writeRatio g.ratios)]

namespace Config

/-- The characters of the text of a configuration. -/
def write (c : Config) : List Char :=
  writeObject
    [writeMember "workdir" (writeOption writeString c.workdir),
      writeMember "build" (writeList (writeList writeString) c.build),
      writeMember "benchmark" (writeList writeString c.benchmark),
      writeMember "invocation" c.invocation.write,
      writeMember "grid" c.grid.write,
      writeMember "output" (writeString c.output),
      writeMember "parallel" (writeCount c.parallel),
      writeMember "timeout_secs" (writeOption writeCount c.timeoutSeconds)]

/-- The text of a configuration. -/
def toJson (c : Config) : String :=
  String.ofList c.write

end Config

end BenchSweep
