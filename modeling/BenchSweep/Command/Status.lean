import BenchSweep.Number.Count

/-!
# Wait statuses

How a process ended, in the encoding that the system reports: the low seven bits hold the signal
that ended the process, `0` if it exited by itself and `127` if it is only stopped; the next bit
tells of a core dump, and the byte above holds the exit code or the signal that stopped it.

## Main definitions

* `Status`: a wait status.
* `Status.code?`, `Status.signal?`: the exit code, or the signal.
* `Status.text`: a status in messages.
-/

namespace BenchSweep.Command

open Number (natText twoTo)

/-- A wait status. -/
structure Status where
  bits : UInt32
  deriving DecidableEq, Repr

/-- The names of the signals, in order from signal 1. -/
def signalNames : List String :=
  ["SIGHUP", "SIGINT", "SIGQUIT", "SIGILL", "SIGTRAP", "SIGABRT", "SIGBUS", "SIGFPE", "SIGKILL",
    "SIGUSR1", "SIGSEGV", "SIGUSR2", "SIGPIPE", "SIGALRM", "SIGTERM", "SIGSTKFLT", "SIGCHLD",
    "SIGCONT", "SIGSTOP", "SIGTSTP", "SIGTTIN", "SIGTTOU", "SIGURG", "SIGXCPU", "SIGXFSZ",
    "SIGVTALRM", "SIGPROF", "SIGWINCH", "SIGIO", "SIGPWR", "SIGSYS"]

/-- A signal in messages: its number, and its name if it has one. -/
def signalText (signal : Nat) : String :=
  match signal, signalNames[signal - 1]? with
  | 0, _ | _, none => natText signal
  | _, some name => natText signal ++ " (" ++ name ++ ")"

namespace Status

/-- The status of a process that exits with a code, which is taken modulo 256. -/
def exited (code : Nat) : Status :=
  ⟨.ofNat (code % 256 * 256)⟩

/-- The status of a process that a signal ends. -/
def signaled (signal : Nat) : Status :=
  ⟨.ofNat (signal % 128)⟩

/-- The signal field. -/
def low (s : Status) : Nat :=
  s.bits.toNat % 128

/-- The byte of the exit code. -/
def high (s : Status) : Nat :=
  s.bits.toNat / 256 % 256

/-- The core dump bit. -/
def hasDump (s : Status) : Bool :=
  s.bits.toNat / 128 % 2 = 1

/-- Success is the status zero. -/
def isSuccess (s : Status) : Bool :=
  s.bits = 0

/-- The code of a process that exited. -/
def code? (s : Status) : Option Nat :=
  if s.low = 0 then some s.high else none

/-- The signal that ended a process. -/
def signal? (s : Status) : Option Nat :=
  if s.low ≠ 0 ∧ s.low ≠ 127 then some s.low else none

/-- The signal that stopped a process without ending it. -/
def stopSignal? (s : Status) : Option Nat :=
  if s.low = 127 ∧ !s.hasDump then some s.high else none

/-- The status of a process that was continued. -/
def isContinued (s : Status) : Bool :=
  s.bits = 0xFFFF

/-- A number of 32 bits with a sign. -/
def signedText (n : UInt32) : String :=
  if n.toNat < twoTo 31 then natText n.toNat else "-" ++ natText (twoTo 32 - n.toNat)

/-- A status in messages. -/
def text (s : Status) : String :=
  match s.code?, s.signal?, s.stopSignal? with
  | some code, _, _ => "exit status: " ++ natText code
  | none, some signal, _ =>
    "signal: " ++ signalText signal ++ if s.hasDump then " (core dumped)" else ""
  | none, none, some signal => "stopped (not terminated) by signal: " ++ signalText signal
  | none, none, none =>
    if s.isContinued then "continued (WIFCONTINUED)"
    else
      "unrecognised wait status: " ++ signedText s.bits ++ " 0x"
        ++ String.ofList (Nat.toDigits 16 s.bits.toNat)

end Status

end BenchSweep.Command
