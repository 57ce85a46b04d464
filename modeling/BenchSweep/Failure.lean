import BenchSweep.Fault
import BenchSweep.ListText
import BenchSweep.SystemError
import BenchSweep.Json.Fault

/-!
# Failures

A failure is a cause and the contexts in which it arose, the outermost first. It is reported as a
chain of messages, from the outermost context to the cause.

## Main definitions

* `Cause`: the first thing that went wrong.
* `Context`: what was being done.
* `Failure`: a cause with its contexts.
* `Failure.messages`: the chain.
-/

namespace BenchSweep

open Number (CountError NumeralError)

/-- The first thing that went wrong. -/
inductive Cause where
  /-- A command line without a program. -/
  | noProgram
  /-- A running process did not end. -/
  | neverEnds
  | fault (fault : SweepFault)
  | json (fault : Json.Fault)
  | count (error : CountError)
  | numeral (error : NumeralError)
  | system (error : SystemError)
  /-- A record that its receiver did not take. -/
  | record (error : SystemError)
  /-- A record that is not as long as the first one. -/
  | unequalRecord (found expected : Nat)
  deriving DecidableEq, Repr

/-- The wording of a cause: its message, and that of the cause behind it. -/
def Cause.messages : Cause → List String
  | .noProgram => ["empty command line"]
  | .neverEnds => ["the process does not end"]
  | .fault f => f.message :: f.cause?.toList.map MetricsError.message
  | .json f => [f.message]
  | .count e => [e.message]
  | .numeral e => [e.message]
  | .system e => [e.message]
  | .record e => [e.message]
  | .unequalRecord found expected =>
    ["CSV error: found record with " ++ Number.natText found
      ++ " fields, but the previous record has " ++ Number.natText expected ++ " fields"]

/-- A flag whose value is a list. -/
inductive ListFlag where
  | servers
  | clients
  | ratios
  deriving DecidableEq, Repr

/-- The name of a flag in messages. -/
def ListFlag.name : ListFlag → String
  | .servers => "servers"
  | .clients => "clients"
  | .ratios => "ratios"

/-- A flag whose value is a number. -/
inductive NumberFlag where
  | port
  | parallel
  | timeout
  deriving DecidableEq, Repr

/-- The name of a flag in messages. -/
def NumberFlag.name : NumberFlag → String
  | .port => "zk port"
  | .parallel => "parallel"
  | .timeout => "timeout"

/-- What was being done when something went wrong. -/
inductive Context where
  | configText
  | readingConfig (path : String)
  | parsingConfig (path : String)
  | listEntry (entry : String)
  | listFlag (flag : ListFlag)
  | numberFlag (flag : NumberFlag)
  | starting (target : String)
  | recordHeader
  | recordRow
  | recordEnd
  | creating (path : String)
  | syncing
  | renaming (source target : String)
  | saving (path : String)
  deriving DecidableEq, Repr

/-- The wording of a context. -/
def Context.message : Context → String
  | .configText => "config json"
  | .readingConfig path => "read config file " ++ path
  | .parsingConfig path => "parse config file " ++ path
  | .listEntry entry => "invalid list entry " ++ Text.quote entry
  | .listFlag flag => flag.name
  | .numberFlag flag => flag.name ++ " should be a number"
  | .starting target => "spawn " ++ target
  | .recordHeader => "csv header"
  | .recordRow => "csv row"
  | .recordEnd => "csv flush"
  | .creating path => "create " ++ path
  | .syncing => "sync results"
  | .renaming source target => "rename " ++ source ++ " to " ++ target
  | .saving path => "save results to " ++ path

/-- A cause with the contexts in which it arose, the outermost first. -/
structure Failure where
  contexts : List Context
  cause : Cause
  deriving DecidableEq, Repr

namespace Failure

/-- A failure without context. -/
def of (cause : Cause) : Failure :=
  ⟨[], cause⟩

/-- A failure that is a fault of the sweep. -/
def ofFault (fault : SweepFault) : Failure :=
  of (.fault fault)

/-- A failure inside one more context. -/
def inContext (context : Context) (f : Failure) : Failure :=
  { f with contexts := context :: f.contexts }

/-- A failure of a list, whose faulty entry is its context. -/
def ofList {ε : Type} (cause : ε → Cause) (e : ListError ε) : Failure :=
  ⟨[.listEntry (String.ofList e.entry)], cause e.cause⟩

/-- The messages of a failure, the outermost first. -/
def messages (f : Failure) : List String :=
  f.contexts.map Context.message ++ f.cause.messages

end Failure

end BenchSweep
