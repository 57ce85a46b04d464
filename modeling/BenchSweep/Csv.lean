import BenchSweep.SystemError
import BenchSweep.Text.Utf8

/-!
# Comma-separated records

Records as lines of fields between commas. A field is quoted if it holds a comma, a quote or the end
of a line; a quote inside is doubled.

Text is written through a buffer of a fixed size. It is filled with units, which are single bytes or
doubled quotes; when a unit does not fit, what is in the buffer is delivered first.

## Main definitions

* `units`: the units of a record.
* `Sink`: what takes the bytes that are delivered.
* `Buffer`, `put`, `writeRecord`: the way of a record through the buffer.
-/

namespace BenchSweep.Csv

open Text (Bytes bytesOf)

/-- A byte that makes a field be quoted: a comma, a quote, a carriage return or a line feed. -/
def needsQuotes (b : UInt8) : Bool :=
  b = 44 || b = 34 || b = 13 || b = 10

/-- A byte of a quoted field. -/
def quotedUnit (b : UInt8) : Bytes :=
  if b = 34 then [34, 34] else [b]

/-- The units of a field. -/
def fieldUnits (field : String) : List Bytes :=
  let bytes := bytesOf field
  if bytes.any needsQuotes then [34] :: (bytes.map quotedUnit ++ [[34]])
  else bytes.map fun b => [b]

/-- The units of a record. -/
def units (record : List String) : List Bytes :=
  List.intercalate [[44]] (record.map fieldUnits) ++ [[10]]

/-- The bytes of a record. -/
def line (record : List String) : Bytes :=
  (units record).flatten

/-- The bytes of records. -/
def text (records : List (List String)) : Bytes :=
  records.flatMap line

/-! ### Delivery -/

/-- What takes bytes. It may take only some of them before it fails; its state then tells which. -/
abbrev Sink (σ : Type) := Bytes → EStateM SystemError σ Unit

/-- The size of the buffer in bytes. -/
def bufferSize : Nat :=
  8192

/-- Bytes that are not delivered yet, the last one first. -/
structure Buffer where
  reversed : Bytes := []
  size : Nat := 0
  deriving DecidableEq, Repr

/-- The bytes in a buffer. -/
def Buffer.bytes (b : Buffer) : Bytes :=
  b.reversed.reverse

/-- A buffer with a unit added. -/
def Buffer.push (b : Buffer) (unit : Bytes) : Buffer :=
  ⟨unit.reverse ++ b.reversed, b.size + unit.length⟩

variable {σ : Type}

/-- Puts a unit into the buffer, which is delivered before if the unit does not fit. -/
def put (sink : Sink σ) (buffer : Buffer) (unit : Bytes) : EStateM SystemError σ Buffer :=
  if buffer.size + unit.length ≤ bufferSize then pure (buffer.push unit)
  else do
    sink buffer.bytes
    return Buffer.push {} unit

/-- Writes a record. -/
def writeRecord (sink : Sink σ) (buffer : Buffer) (record : List String) :
    EStateM SystemError σ Buffer :=
  (units record).foldlM (put sink) buffer

/-! ### A sink of a fixed size -/

/-- What a fixed amount of room has taken, and how much room is left. -/
structure Room where
  taken : Bytes := []
  left : Nat
  deriving DecidableEq, Repr

/-- Takes as many bytes as there is room for. -/
def Room.take (bytes : Bytes) : EStateM SystemError Room Unit := fun room =>
  let room' : Room := ⟨room.taken ++ bytes.take room.left, room.left - bytes.length⟩
  if bytes.length ≤ room.left then .ok () room' else .error .bufferFull room'

end BenchSweep.Csv
