import BenchSweep.Proofs.Csv.Delivery
import BenchSweep.Proofs.Text.Split

/-!
# The pieces that a buffer delivers

Units are put into a buffer of a fixed size, and when one does not fit, the buffer is delivered and
filled again. So what is delivered is the text of the units, cut into pieces that are full up to one
byte: a unit has one byte or two. A table goes through the buffer in this way; its header fits into
it, so only a row or the end of the table can meet a delivery that fails.

## Why the refills are a function

Units are put into the buffer one at a time, with deliveries in between, and a state is passed
along. The pieces do not depend on the receiver, unless it fails, and then they are not delivered
any more. So they are computed from the units alone, by a recursion with what the buffer holds, and
the write of a table is the delivery of these pieces (`Table.write_eq`). The sizes are then read off
by induction on the units.

## Main definitions

* `Csv.refills`: the pieces that are delivered, and what is in the buffer in the end.
* `Table.refills`: those of a table.

## Main results

* `Csv.foldlM_put`: putting units into a buffer delivers its refills.
* `Csv.flatten_refills`, `Csv.length_of_mem_refills`: the refills of units.
* `Table.write_eq`: a table is written by delivering its refills and then the rest.
-/

namespace BenchSweep

open Text (Bytes)

namespace Csv

/-- The pieces that a buffer delivers while units are put into it, and what it holds then. -/
def refills (held : Bytes) : List Bytes → List Bytes × Bytes
  | [] => ([], held)
  | unit :: units =>
    if held.length + unit.length ≤ bufferSize then refills (held ++ unit) units
    else (held :: (refills unit units).1, (refills unit units).2)

/-- A buffer that holds some bytes. -/
def Buffer.ofBytes (bytes : Bytes) : Buffer :=
  ⟨bytes.reverse, bytes.length⟩

@[simp] theorem Buffer.bytes_ofBytes (bytes : Bytes) : (Buffer.ofBytes bytes).bytes = bytes :=
  List.reverse_reverse bytes

theorem Buffer.push_ofBytes (bytes unit : Bytes) :
    (Buffer.ofBytes bytes).push unit = .ofBytes (bytes ++ unit) := by
  rw [ofBytes, ofBytes, push, List.reverse_append, List.length_append]

/-- Units that fit into the buffer stay there. -/
theorem refills_of_le {held : Bytes} {units : List Bytes}
    (h : held.length + units.flatten.length ≤ bufferSize) :
    refills held units = ([], held ++ units.flatten) := by
  induction units generalizing held with
  | nil => rw [refills, List.flatten_nil, List.append_nil]
  | cons unit units ih =>
    rw [List.flatten_cons, List.length_append] at h
    rw [refills, if_pos (by omega), ih (by rw [List.length_append]; omega), List.flatten_cons,
      List.append_assoc]

/-- The pieces are the text of the units, after what the buffer held at first. -/
theorem flatten_refills (held : Bytes) (units : List Bytes) :
    (refills held units).1.flatten ++ (refills held units).2 = held ++ units.flatten := by
  induction units generalizing held with
  | nil => exact (List.append_nil held).symm
  | cons unit units ih =>
    rw [refills]
    split
    · rw [ih, List.flatten_cons, List.append_assoc]
    · rw [List.flatten_cons, List.append_assoc, ih, List.flatten_cons]

/-- A piece is full up to less than a unit. -/
theorem length_of_mem_refills {held : Bytes} {units : List Bytes}
    (hheld : held.length ≤ bufferSize) (hunits : ∀ unit ∈ units, unit.length ≤ 2) :
    (∀ piece ∈ (refills held units).1,
      bufferSize ≤ piece.length + 1 ∧ piece.length ≤ bufferSize) ∧
    (refills held units).2.length ≤ bufferSize := by
  induction units generalizing held with
  | nil => exact ⟨fun _ h => absurd h List.not_mem_nil, hheld⟩
  | cons unit units ih =>
    obtain ⟨hunit, hunits⟩ := List.forall_mem_cons.1 hunits
    rw [refills]
    split
    next hfits => exact ih (by rwa [List.length_append]) hunits
    next hfull =>
      have hsize : unit.length ≤ bufferSize := Nat.le_trans hunit (by decide)
      obtain ⟨hpieces, hrest⟩ := ih hsize hunits
      exact ⟨List.forall_mem_cons.2 ⟨⟨by omega, hheld⟩, hpieces⟩, hrest⟩

variable {σ : Type} (sink : Sink σ)

/-- Putting units into a buffer delivers its refills. -/
theorem foldlM_put (held : Bytes) (units : List Bytes) :
    units.foldlM (put sink) (.ofBytes held) = (do
      forM (refills held units).1 sink
      return Buffer.ofBytes (refills held units).2) := by
  induction units generalizing held with
  | nil => simp [refills]
  | cons unit units ih =>
    rw [List.foldlM_cons, put, refills, Buffer.bytes_ofBytes, Buffer.push_ofBytes]
    change (if held.length + unit.length ≤ bufferSize then _ else _) >>= _ = _
    split
    · rw [pure_bind, ih]
    · have hpush : Buffer.push {} unit = .ofBytes unit := Buffer.push_ofBytes [] unit
      rw [bind_assoc, pure_bind, hpush, ih, List.forM_cons, bind_assoc]

/-! ### Units -/

/-- A unit is a byte or a doubled quote. -/
theorem length_le_of_mem_units {record : List String} {unit : Bytes} (h : unit ∈ units record) :
    unit.length ≤ 2 := by
  have hfield {field : String} (h : unit ∈ fieldUnits field) : unit.length ≤ 2 := by
    rw [fieldUnits] at h
    split at h
    · simp only [List.mem_cons, List.mem_append, List.mem_map, List.not_mem_nil, or_false] at h
      rcases h with rfl | ⟨b, -, rfl⟩ | rfl
      · decide
      · rw [quotedUnit]
        split <;> simp
      · decide
    · obtain ⟨b, -, rfl⟩ := List.mem_map.1 h
      exact Nat.le_succ 1
  rw [units, List.mem_append, List.mem_singleton] at h
  rcases h with h | rfl
  · rcases Text.mem_intercalate h with h | ⟨l, hl, h⟩
    · rw [List.mem_singleton.1 h]
      decide
    · obtain ⟨field, -, rfl⟩ := List.mem_map.1 hl
      exact hfield h
  · decide

end Csv

namespace Table

/-- The pieces in which a table is delivered: those that a record makes room by, and the rest. -/
def refills (t : Table) : List Bytes × Bytes :=
  Csv.refills (Csv.line header) (t.rows.flatMap fun row => Csv.units row.record)

theorem flatten_refills (t : Table) : t.refills.1.flatten ++ t.refills.2 = t.text := by
  rw [refills, Csv.flatten_refills, text_eq]
  simp only [Csv.line, List.flatten_eq_flatMap, List.flatMap_assoc]

/-- All pieces but the last are full up to one byte. -/
theorem length_of_mem_refills (t : Table) :
    (∀ piece ∈ t.refills.1,
      Csv.bufferSize ≤ piece.length + 1 ∧ piece.length ≤ Csv.bufferSize) ∧
    t.refills.2.length ≤ Csv.bufferSize := by
  refine Csv.length_of_mem_refills (by decide) fun unit hunit => ?_
  obtain ⟨row, -, hunit⟩ := List.mem_flatMap.1 hunit
  exact Csv.length_le_of_mem_units hunit

variable {σ : Type} (sink : Csv.Sink σ)

theorem adaptExcept_bind {ε ε' α β : Type} (f : ε → ε') (x : EStateM ε σ α)
    (g : α → EStateM ε σ β) :
    EStateM.adaptExcept f (x >>= g) =
      EStateM.adaptExcept f x >>= fun a => EStateM.adaptExcept f (g a) := by
  funext s
  change EStateM.adaptExcept f (EStateM.bind x g) s =
    EStateM.bind (EStateM.adaptExcept f x) (fun a => EStateM.adaptExcept f (g a)) s
  simp only [EStateM.adaptExcept, EStateM.bind]
  cases x s <;> rfl

/-- The failure of a record that its receiver does not take. -/
def recordFailure (context : Context) (e : SystemError) : Failure :=
  ⟨[context], .record e⟩

/-- The failure of the end of a table that its receiver does not take. -/
def endFailure (e : SystemError) : Failure :=
  ⟨[.recordEnd], .system e⟩

/-- A record that is as long as the header is put into the buffer. -/
theorem writeRecord_eq (context : Context) (b : Csv.Buffer) {record : List String}
    (hlength : record.length = header.length) :
    writeRecord sink context b record =
      EStateM.adaptExcept (recordFailure context) ((Csv.units record).foldlM (Csv.put sink) b) := by
  funext s
  rw [writeRecord, Csv.writeRecord, EStateM.adaptExcept]
  cases (Csv.units record).foldlM (Csv.put sink) b s with
  | ok b s => exact if_pos hlength
  | error e s => rfl

theorem foldlM_writeRecord_eq (b : Csv.Buffer) (rows : List Row) :
    rows.foldlM (fun b row => writeRecord sink .recordRow b row.record) b =
      EStateM.adaptExcept (recordFailure .recordRow)
        ((rows.flatMap fun row => Csv.units row.record).foldlM (Csv.put sink) b) := by
  induction rows generalizing b with
  | nil => rfl
  | cons row rows ih =>
    rw [List.foldlM_cons, writeRecord_eq sink .recordRow b (length_record row), List.flatMap_cons,
      List.foldlM_append, adaptExcept_bind]
    exact congrArg _ (funext ih)

theorem writeEnd_eq (b : Csv.Buffer) :
    writeEnd sink b = EStateM.adaptExcept endFailure (sink b.bytes) := by
  funext s
  rw [writeEnd, EStateM.adaptExcept]
  cases sink b.bytes s <;> rfl

/-- **A table is written by delivering its refills and then the rest.** A refill that fails is the
failure of a row, the rest is the end of the table; the header fits into the buffer. -/
theorem write_eq (t : Table) :
    t.write sink = (do
      EStateM.adaptExcept (recordFailure .recordRow) (forM t.refills.1 sink)
      EStateM.adaptExcept endFailure (sink t.refills.2)) := by
  have hheader : (Csv.units header).foldlM (Csv.put sink) {} =
      pure (Csv.Buffer.ofBytes (Csv.line header)) := by
    have hrefills : Csv.refills [] (Csv.units header) = ([], Csv.line header) :=
      Csv.refills_of_le (by decide)
    have hput := Csv.foldlM_put sink [] (Csv.units header)
    rw [hrefills, List.forM_nil, pure_bind] at hput
    exact hput
  rw [write, writeRecord_eq sink .recordHeader {} rfl, hheader]
  change (rows t).foldlM _ (Csv.Buffer.ofBytes (Csv.line header)) >>= writeEnd sink = _
  rw [foldlM_writeRecord_eq, Csv.foldlM_put, adaptExcept_bind, bind_assoc]
  refine congrArg _ (funext fun _ => ?_)
  change writeEnd sink _ = _
  rw [writeEnd_eq, Csv.Buffer.bytes_ofBytes]
  rfl

end Table

end BenchSweep
