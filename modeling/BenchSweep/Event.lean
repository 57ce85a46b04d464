/-!
# Events

What a sweep tells about itself while it runs.

## Main definitions

* `Event`: a message with its level and its topic.
-/

namespace BenchSweep

/-- How much an event matters, the least first. -/
inductive Level where
  | trace
  | debug
  | info
  | warn
  | error
  deriving DecidableEq, Repr

/-- A level in logs. -/
def Level.name : Level → String
  | .trace => "TRACE"
  | .debug => "DEBUG"
  | .info => "INFO"
  | .warn => "WARN"
  | .error => "ERROR"

/-- The part of a sweep that tells of an event. -/
inductive Topic where
  | sweep
  | build
  | benchmark
  | command
  deriving DecidableEq, Repr

/-- A topic in logs. -/
def Topic.name : Topic → String
  | .sweep => "kvsweep::sweep"
  | .build => "kvsweep::setup"
  | .benchmark => "kvsweep::bench"
  | .command => "kvsweep::exec"

/-- A message with its level and its topic. -/
structure Event where
  level : Level
  topic : Topic
  message : String
  deriving DecidableEq, Repr

end BenchSweep
