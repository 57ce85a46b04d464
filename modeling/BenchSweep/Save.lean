import BenchSweep.Disk
import BenchSweep.Table

/-!
# Saving a table

A table is saved in three steps: it is written to a temporary file beside its path, the file is made
durable, and then it takes its place. So the path never holds a part of a table. If a step fails,
the temporary file is removed.

The file is behind a buffer of its own, so what the records deliver reaches it later, and in other
pieces. When a delivery to the file fails, what is left in the buffers may still reach it, in part
or more than once, before it is removed.

Every step can be made to fail, and the trees between the steps are kept, so that what holds at any
moment can be stated.

## Main definitions

* `Mishaps`: which steps are made to fail.
* `Trace`: the present tree and the past ones.
* `Save.intoFile`: a file behind its buffer.
* `Table.save`: the three steps.
-/

namespace BenchSweep

open Text (Bytes)

/-- The steps that are made to fail, and how. -/
structure Mishaps where
  create : Option SystemError := none
  /-- By the number of earlier deliveries: how many bytes still arrive, and the error. -/
  deliver : Nat → Option (Nat × SystemError) := fun _ => none
  /-- What still reaches the file after a delivery has failed. -/
  leftovers : List Bytes := []
  sync : Option SystemError := none
  rename : Option SystemError := none

/-- The present tree and the past ones, the latest first. -/
structure Trace where
  disk : Disk
  past : List Disk := []
  /-- How often bytes have been delivered to the file. -/
  deliveries : Nat := 0
  /-- The bytes in the buffer of the file. -/
  pending : Bytes := []
  deriving DecidableEq, Repr

/-- The next tree. -/
def Trace.push (t : Trace) (disk : Disk) : Trace :=
  { t with disk, past := t.disk :: t.past }

namespace Save

/-- A step that changes the tree and gives a value, unless it is made to fail. -/
def step {α : Type} (mishap : Option SystemError) (context : Context)
    (f : Disk → Except SystemError (α × Disk)) : EStateM Failure Trace α := fun t =>
  match mishap with
  | some e => .error ⟨[context], .system e⟩ t
  | none =>
    match f t.disk with
    | .error e => .error ⟨[context], .system e⟩ t
    | .ok (a, disk) => .ok a (t.push disk)

/-- Delivers bytes to a file. -/
def deliver (m : Mishaps) (l : Location) : Csv.Sink Trace := fun bytes t =>
  let t' := { t with deliveries := t.deliveries + 1 }
  match m.deliver t.deliveries with
  | some (arrived, e) => .error e (t'.push (t.disk.append l (bytes.take arrived)))
  | none => .ok () (t'.push (t.disk.append l bytes))

/-- Delivers what is in the buffer of a file. -/
def flush (m : Mishaps) (l : Location) : EStateM SystemError Trace Unit := fun t =>
  if t.pending = [] then .ok () t
  else
    match deliver m l t.pending t with
    | .error e t => .error e t
    | .ok _ t => .ok () { t with pending := [] }

/-- A file behind its buffer as a receiver of bytes. Bytes for which there is no room make the
buffer be delivered first, and as many bytes as fill a whole buffer are delivered directly. -/
def intoFile (m : Mishaps) (l : Location) : Csv.Sink Trace := fun bytes t =>
  if t.pending.length + bytes.length < Csv.bufferSize then
    .ok () { t with pending := t.pending ++ bytes }
  else
    match if Csv.bufferSize < t.pending.length + bytes.length then flush m l t else .ok () t with
    | .error e t => .error e t
    | .ok _ t =>
      if Csv.bufferSize ≤ bytes.length then deliver m l bytes t
      else .ok () { t with pending := t.pending ++ bytes }

/-- The trees after a delivery that failed. -/
def leave (m : Mishaps) (l : Location) (t : Trace) : Trace :=
  m.leftovers.foldl (fun t bytes => t.push (t.disk.append l bytes)) t

/-- Writes a table to a file. -/
def write (m : Mishaps) (l : Location) (table : Table) : EStateM Failure Trace Unit := fun t =>
  match table.write (intoFile m l) t with
  | .error f t => .error f (leave m l t)
  | .ok _ t =>
    match flush m l t with
    | .error e t => .error ⟨[.recordEnd], .system e⟩ (leave m l t)
    | .ok _ t => .ok () t

/-- Writes a table to the temporary file and lets it take its place. -/
def steps (m : Mishaps) (here : Location) (table : Table) (path : String) :
    EStateM Failure Trace Unit := do
  let temporary := Path.temporary path
  let l ← step m.create (.creating temporary) (·.create here temporary)
  write m l table
  step m.sync .syncing fun d => (d.sync l).map (·, d)
  step m.rename (.renaming temporary path) fun d => (d.rename here temporary path).map ((), ·)

/-- The tree without a temporary file. -/
def clear (here : Location) (path : String) (t : Trace) : Trace :=
  match t.disk.unlink here (Path.temporary path) with
  | .error _ => t
  | .ok disk => t.push disk

end Save

/-- Saves a table under a path, in place of a file that is there. -/
def Table.save (m : Mishaps) (here : Location) (table : Table) (path : String) :
    EStateM Failure Trace Unit := fun t =>
  match Save.steps m here table path t with
  | .ok _ t => .ok () t
  | .error f t => .error f (Save.clear here path t)

/-- Saves a table on a tree where no step is made to fail: the outcome, and the tree after it. -/
def Table.saveOn (table : Table) (here : Location) (path : String) (disk : Disk) :
    Except Failure Unit × Disk :=
  match table.save {} here path { disk } with
  | .ok _ t => (.ok (), t.disk)
  | .error f t => (.error f, t.disk)

end BenchSweep
