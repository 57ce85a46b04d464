import BenchSweep.Text.Blank
import BenchSweep.Text.Utf8
import BenchSweep.Command.Status

/-!
# Ended processes

What is left of a process that has ended: its status and all that it wrote.

## Main definitions

* `Ending`: status, standard output and standard error.
* `Ending.errorText`: standard error as text.
-/

namespace BenchSweep.Command

open Text (Bytes)

/-- What a process leaves behind. -/
structure Ending where
  status : Status
  stdout : Bytes
  stderr : Bytes
  deriving DecidableEq, Repr

namespace Ending

/-- Whether the process succeeded. -/
def isSuccess (e : Ending) : Bool :=
  e.status.isSuccess

/-- Standard error as text, with malformed bytes replaced and without blanks at the end. -/
def errorText (e : Ending) : String :=
  String.ofList (Text.trimEnd (Text.decodeLossy e.stderr))

end Ending

end BenchSweep.Command
