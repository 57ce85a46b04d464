import BenchSweep.Csv
import BenchSweep.Failure

/-!
# Tables of results

A table has one row for each point that has run, in the order of the points.

## Main definitions

* `Row`: a point with its metrics.
* `Table`: rows in order.
* `Table.write`: a table as comma-separated text, through a sink.
-/

namespace BenchSweep

/-- A point with its metrics. -/
structure Row where
  point : Point
  metrics : Metrics
  deriving DecidableEq, Repr

namespace Row

/-- The fields of a row. -/
def record (r : Row) : List String :=
  r.point.args ++ r.metrics.values

/-- A row in messages. -/
def text (r : Row) : String :=
  r.point.text ++ " -> writes = " ++ r.metrics.writes ++ " | reads = " ++ r.metrics.reads
    ++ " | time = " ++ r.metrics.time ++ " | add = " ++ r.metrics.addTime
    ++ " | remove = " ++ r.metrics.removeTime

end Row

/-- Rows in order. -/
structure Table where
  rows : List Row := []
  deriving DecidableEq, Repr

namespace Table

/-- The names of the fields of a row. -/
def header : List String :=
  ["num_servers", "num_clients", "ratio"] ++ Metrics.names

/-- A table with one more row. -/
def push (t : Table) (r : Row) : Table :=
  ⟨t.rows ++ [r]⟩

/-- The number of rows. -/
def size (t : Table) : Nat :=
  t.rows.length

/-- Whether there is no row. -/
def isEmpty (t : Table) : Bool :=
  t.rows.isEmpty

/-- The records of a table: the header and the rows. -/
def records (t : Table) : List (List String) :=
  header :: t.rows.map Row.record

/-- The text of a table. -/
def text (t : Table) : Text.Bytes :=
  Csv.text t.records

variable {σ : Type}

/-- Writes a record, which has to be as long as the header. -/
def writeRecord (sink : Csv.Sink σ) (context : Context) (buffer : Csv.Buffer)
    (record : List String) : EStateM Failure σ Csv.Buffer := fun s =>
  match Csv.writeRecord sink buffer record s with
  | .error e s => .error ⟨[context], .record e⟩ s
  | .ok buffer s =>
    if record.length = header.length then .ok buffer s
    else .error ⟨[context], .unequalRecord record.length header.length⟩ s

/-- Delivers the rest of the buffer. -/
def writeEnd (sink : Csv.Sink σ) (buffer : Csv.Buffer) : EStateM Failure σ Unit := fun s =>
  match sink buffer.bytes s with
  | .error e s => .error ⟨[.recordEnd], .system e⟩ s
  | .ok _ s => .ok () s

/-- Writes a table. -/
def write (sink : Csv.Sink σ) (t : Table) : EStateM Failure σ Unit := do
  let buffer ← writeRecord sink .recordHeader {} header
  let buffer ←
    t.rows.foldlM (fun buffer row => writeRecord sink .recordRow buffer row.record) buffer
  writeEnd sink buffer

end Table

end BenchSweep
