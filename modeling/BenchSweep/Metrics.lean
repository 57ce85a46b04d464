import BenchSweep.Text.Blank
import BenchSweep.Text.Utf8
import BenchSweep.Text.Quoted
import BenchSweep.Number.Numeral

/-!
# Metrics of a benchmark run

A benchmark prints five numbers, one on each line. The lines are kept as they were printed, without
the blanks around them, so that a report repeats them exactly.

## Main definitions

* `Metrics`: the five values.
* `Metrics.read`: the values that an output holds.
* `MetricsError`: what is wrong with an output.
-/

namespace BenchSweep

open Text (Bytes)

/-- The five values of a run, as printed. -/
structure Metrics where
  writes : String
  reads : String
  time : String
  addTime : String
  removeTime : String
  deriving DecidableEq, Repr

namespace Metrics

/-- The names of the five values, in the order of the lines. -/
def names : List String :=
  ["num_writes", "num_reads", "time_taken", "time_to_add_a_node", "time_to_remove_a_node"]

/-- The five values, in the order of `names`. -/
def values (m : Metrics) : List String :=
  [m.writes, m.reads, m.time, m.addTime, m.removeTime]

end Metrics

/-- What is wrong with the output of a benchmark. -/
inductive MetricsError where
  /-- The output is not UTF-8. -/
  | notText
  /-- There are fewer lines than values. -/
  | tooFew (found : Nat)
  /-- There are more lines than values; the others are `extra`. -/
  | tooMany (extra : List String)
  /-- A line is blank. -/
  | blank (field : String)
  /-- A line is not a number. -/
  | notNumber (field value : String)
  deriving DecidableEq, Repr

/-- The wording of a metrics error. -/
def MetricsError.message : MetricsError → String
  | .notText => "output is not valid utf-8"
  | .tooFew found =>
    "expected " ++ Number.natText Metrics.names.length ++ " fields but found "
      ++ Number.natText found ++ "; missing " ++ Text.quoteList (Metrics.names.drop found)
  | .tooMany extra =>
    "expected " ++ Number.natText Metrics.names.length ++ " fields but found "
      ++ Number.natText (Metrics.names.length + extra.length) ++ "; extra " ++ Text.quoteList extra
  | .blank field => "field `" ++ field ++ "` is empty"
  | .notNumber field value => "field `" ++ field ++ "` is not a number: " ++ Text.quote value

namespace Metrics

/-- A text without the character `c` at its end, if it ends in one. -/
def dropEnd (c : Char) (s : List Char) : List Char :=
  if s.getLast? = some c then s.dropLast else s

/-- The lines of an output. One line feed at the end closes the last line; a carriage return before
a line feed belongs to the line end. -/
def lines (text : List Char) : List (List Char) :=
  let body := dropEnd '\n' text
  if body = [] then [] else (Text.splitOn '\n' body).map (dropEnd '\r')

/-- The value on the line of a field. -/
def readField (field : String) (line : List Char) : Except MetricsError String :=
  let value := Text.trim line
  if value = [] then .error (.blank field)
  else
    match Number.readBinary64 value with
    | .ok _ => .ok (String.ofList value)
    | .error _ => .error (.notNumber field (String.ofList value))

/-- The values on the lines of an output, which must be five. -/
def ofLines : List (List Char) → Except MetricsError Metrics
  | [l₁, l₂, l₃, l₄, l₅] => do
    let writes ← readField "num_writes" l₁
    let reads ← readField "num_reads" l₂
    let time ← readField "time_taken" l₃
    let addTime ← readField "time_to_add_a_node" l₄
    let removeTime ← readField "time_to_remove_a_node" l₅
    return { writes, reads, time, addTime, removeTime }
  | ls =>
    if ls.length < names.length then .error (.tooFew ls.length)
    else .error (.tooMany ((ls.drop names.length).map String.ofList))

/-- The values that the output of a benchmark holds. -/
def read (output : Bytes) : Except MetricsError Metrics :=
  match Text.decode? output with
  | none => .error .notText
  | some text => ofLines (lines text)

end Metrics

end BenchSweep
