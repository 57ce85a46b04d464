import BenchSweep.Number.Power

/-!
# Progress

A counter of finished work. It may run past its length; finishing moves it to the length.

## Main definitions

* `Progress`: position and length.
* `Progress.advance`, `Progress.finish`: one step, and the end.
-/

namespace BenchSweep

/-- The largest position. -/
def Progress.limit : Nat :=
  Number.twoTo 64 - 1

/-- A counter of finished work. -/
structure Progress where
  position : Nat := 0
  length : Nat
  deriving DecidableEq, Repr

namespace Progress

/-- A counter of a known amount of work. -/
def ofLength (n : Nat) : Progress :=
  { length := n }

/-- A counter that is not shown; its length is the largest position. -/
def hidden : Progress :=
  ofLength limit

/-- One more unit of work is done. The position stays at the limit once it is there. -/
def advance (p : Progress) : Progress :=
  { p with position := min limit (p.position + 1) }

/-- All work is done. -/
def finish (p : Progress) : Progress :=
  { p with position := p.length }

end Progress

end BenchSweep
