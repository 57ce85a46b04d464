import BenchSweep.Number.Count

/-!
# Durations

Spans of time in nanoseconds, written in the largest unit that they fill.

## Main definitions

* `Duration`: a span of time.
* `Duration.text`: a span in messages, such as `2.1s` or `25ms`.
-/

namespace BenchSweep

open Number (decimal tenTo)

/-- A span of time. -/
structure Duration where
  nanos : Nat
  deriving DecidableEq, Repr

namespace Duration

/-- A number of seconds. -/
def ofSeconds (n : Nat) : Duration :=
  ⟨n * tenTo 9⟩

/-- A number of milliseconds. -/
def ofMillis (n : Nat) : Duration :=
  ⟨n * tenTo 6⟩

/-- The digits of a fraction of `places` places, without zeros at the end, after a point; nothing if
the fraction is zero. -/
def fraction (n places : Nat) : List Char :=
  if n = 0 then []
  else
    let digits := decimal n
    let padded := List.replicate (places - digits.length) '0' ++ digits
    '.' :: (padded.reverse.dropWhile (· = '0')).reverse

/-- A span in units of `10 ^ places` nanoseconds. -/
def inUnits (d : Duration) (places : Nat) (unit : String) : String :=
  let whole := decimal (d.nanos / tenTo places)
  String.ofList (whole ++ fraction (d.nanos % tenTo places) places) ++ unit

/-- A span in messages. -/
def text (d : Duration) : String :=
  if tenTo 9 ≤ d.nanos then d.inUnits 9 "s"
  else if tenTo 6 ≤ d.nanos then d.inUnits 6 "ms"
  else if tenTo 3 ≤ d.nanos then d.inUnits 3 "µs"
  else d.inUnits 0 "ns"

end Duration

end BenchSweep
