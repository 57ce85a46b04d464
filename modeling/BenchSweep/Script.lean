import BenchSweep.Command.Ending
import BenchSweep.Duration
import BenchSweep.Event
import BenchSweep.Table

/-!
# Scripts

A script is a program that acts on its surroundings only through requests. It is a tree: each node
is a request, with one branch for every answer. What a script does can so be stated for all answers
at once, and any surroundings can run it.

Commands that have been started and have not ended are *in flight*. They are numbered from zero, in
the order in which they were started; when one ends, those after it move up.

## Main definitions

* `Command`: a program with its arguments and directory.
* `Behaviour`: what becomes of a command that was started.
* `Script`: the tree of requests.
-/

namespace BenchSweep

/-- A program with its arguments, and the directory in which it runs. -/
structure Command where
  program : String
  args : List String
  dir : String
  deriving DecidableEq, Repr

/-- What becomes of a command that was started. -/
inductive Behaviour where
  /-- It ended within its time limit. -/
  | ended (ending : Command.Ending)
  /-- It was still running at its time limit, and was killed. -/
  | overran
  deriving DecidableEq, Repr

/-- A program that acts through requests. -/
inductive Script (α : Type) where
  | done (result : α)
  /-- Tells of an event. -/
  | note (event : Event) (next : Script α)
  /-- Starts a command with a time limit; the answer is the error if it cannot be started. -/
  | launch (command : Command) (limit : Option Duration) (next : Option SystemError → Script α)
  /-- Waits for one of the commands in flight, of which there are `others + 1`. -/
  | await (others : Nat) (next : Fin (others + 1) → Behaviour → Script α)
  /-- Kills all commands in flight. -/
  | cancel (next : Script α)
  /-- Asks whether a path exists. -/
  | probe (path : String) (next : Bool → Script α)
  /-- Saves a table under a path. -/
  | save (table : Table) (path : String) (next : Except Failure Unit → Script α)

namespace Script

variable {α β : Type}

/-- A script that goes on with the result of another one. -/
def bind : Script α → (α → Script β) → Script β
  | done result, f => f result
  | note event next, f => note event (next.bind f)
  | launch command limit next, f => launch command limit fun answer => (next answer).bind f
  | await others next, f => await others fun i behaviour => (next i behaviour).bind f
  | cancel next, f => cancel (next.bind f)
  | probe path next, f => probe path fun answer => (next answer).bind f
  | save table path next, f => save table path fun answer => (next answer).bind f

instance : Monad Script where
  pure := done
  bind := bind

/-- Tells of an event. -/
def tell (level : Level) (topic : Topic) (message : String) : Script Unit :=
  note ⟨level, topic, message⟩ (done ())

end Script

/-- A script that may fail. -/
abbrev Attempt (α : Type) := ExceptT Failure Script α

/-- Ends an attempt in a failure, or goes on. -/
def Attempt.ofExcept {α : Type} : Except Failure α → Attempt α
  | .ok a => pure a
  | .error f => throw f

end BenchSweep
