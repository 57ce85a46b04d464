import BenchSweep.Config.Basic
import BenchSweep.Failure
import BenchSweep.Json.Reader

/-!
# Configurations as JSON texts: reading

A configuration is a record, and so are its invocation and its grid. Fields that are left out keep
their defaults, at each level by itself.

## Main definitions

* `Config.ofJson`: the configuration that a text describes.
-/

namespace BenchSweep

open Json (RecordField Reader readCount readFloat readListOf readOption readPath readPort readRecord
  readSeconds readText)

/-- The fields of an invocation, in order. -/
def Invocation.fields : List (RecordField Invocation) :=
  [.of "config_file" readPath fun value i => { i with configFile := value },
    .of "zk_host" readText fun value i => { i with host := value },
    .of "zk_port" readPort fun value i => { i with port := value },
    .of "server_artifact" readPath fun value i => { i with artifact := value },
    .of "data_dir" readPath fun value i => { i with dataDir := value }]

/-- The fields of a grid, in order. -/
def Grid.fields : List (RecordField Grid) :=
  [.of "servers" (readListOf readCount) fun value g => { g with servers := value },
    .of "clients" (readListOf readCount) fun value g => { g with clients := value },
    .of "ratios" (readListOf readFloat) fun value g => { g with ratios := value }]

/-- Reads an invocation. -/
def Invocation.read : Reader Invocation :=
  readRecord "struct InvocationSpec" Invocation.fields {}

/-- Reads a grid. -/
def Grid.read : Reader Grid :=
  readRecord "struct ParameterGrid" Grid.fields .default

namespace Config

/-- The fields of a configuration, in order. -/
def fields : List (RecordField Config) :=
  [.of "workdir" (readOption readPath) fun value c => { c with workdir := value },
    .of "build" (readListOf (readListOf readText)) fun value c => { c with build := value },
    .of "benchmark" (readListOf readText) fun value c => { c with benchmark := value },
    .of "invocation" Invocation.read fun value c => { c with invocation := value },
    .of "grid" Grid.read fun value c => { c with grid := value },
    .of "output" readPath fun value c => { c with output := value },
    .of "parallel" readCount fun value c => { c with parallel := value },
    .of "timeout_secs" (readOption readSeconds) fun value c => { c with timeoutSeconds := value }]

/-- Reads a configuration. -/
def read : Reader Config :=
  readRecord "struct SweepConfig" fields {}

/-- The configuration that a text describes. -/
def ofJson (text : String) : Except Failure Config :=
  (Json.read read text.toList).mapError fun fault => ⟨[.configText], .json fault⟩

end Config

end BenchSweep
