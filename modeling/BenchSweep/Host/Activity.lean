import BenchSweep.Disk

/-!
# Activities

What a running process does: it looks at the tree of files, changes it, lets time pass, and ends in
a result. Between two pauses an activity is not interrupted.

## Main definitions

* `Activity`: the steps of a process.
* `Activity.advance`: the steps up to the next pause.
-/

namespace BenchSweep.Host

/-- The steps of a process. -/
inductive Activity (α : Type) where
  | done (result : α)
  | look (next : Disk → Activity α)
  | change (disk : Disk) (next : Activity α)
  | pause (nanos : Nat) (next : Activity α)
  /-- A process that does not end. -/
  | stuck

namespace Activity

variable {α β : Type}

/-- An activity that goes on with the result of another one. -/
def bind : Activity α → (α → Activity β) → Activity β
  | done result, f => f result
  | look next, f => look fun disk => (next disk).bind f
  | change disk next, f => change disk (next.bind f)
  | pause nanos next, f => pause nanos (next.bind f)
  | stuck, _ => stuck

instance : Monad Activity where
  pure := done
  bind := bind

/-- Where an activity stands when it does not go on by itself. -/
inductive Stage (α : Type) where
  | done (result : α)
  | pausing (nanos : Nat) (next : Activity α)
  | stuck

/-- The steps of an activity up to its next pause. -/
def advance : Activity α → Disk → Disk × Stage α
  | done result, disk => (disk, .done result)
  | look next, disk => (next disk).advance disk
  | change disk next, _ => next.advance disk
  | pause nanos next, disk => (disk, .pausing nanos next)
  | stuck, disk => (disk, .stuck)

end Activity

end BenchSweep.Host
