import BenchSweep.Table

/-!
# What a sink gets of a table

The units of a record go through a buffer, so the pieces in which a sink gets the text of a table do
not follow the records. What it has got in all does: if every delivery succeeds, it is the text, and
otherwise the write ends with the delivery that failed.

The result is for any assertion that the deliveries keep, so it can be used for every sink.

## Why the assertion is a parameter

A table goes to a file in one use and to a buffer of a fixed size in another, and what has to be
known of the receiver differs. `Sink.Keeps` is what any receiver has to provide, that one delivery
keeps an assertion about all that was delivered so far, and `Table.lands_write` is what a table
makes of it. The result on the trees of a save (`BenchSweep.Proofs.Save.Write`) and the one on a
table that is read back are instances.

## Scope

Where the pieces are cut is left open here, and so are the failures of deliveries. For a receiver
with a fixed amount of room the cuts are told in `BenchSweep.Proofs.Csv.Refills`.

## Main definitions

* `Lands`: where a step with a state ends.
* `Csv.Sink.Keeps`: an assertion about what has been delivered, kept by every delivery.

## Main results

* `Table.lands_write`: after a table was written, its text has been delivered.
-/

namespace BenchSweep

open Text (Bytes)

/-! ### Steps with a state -/

section Lands

variable {ε σ α β : Type} {P : α → σ → Prop} {P' : β → σ → Prop} {R : σ → Prop}

/-- A step ends well with a value and a state as in `P`, or it fails with a state as in `R`. -/
def Lands (P : α → σ → Prop) (R : σ → Prop) : EStateM.Result ε σ α → Prop
  | .ok a s => P a s
  | .error _ s => R s

theorem Lands.cases {r : EStateM.Result ε σ α} (h : Lands P R r) :
    (∃ a s, r = .ok a s ∧ P a s) ∨ ∃ e s, r = .error e s ∧ R s := by
  cases r with
  | ok a s => exact .inl ⟨a, s, rfl, h⟩
  | error e s => exact .inr ⟨e, s, rfl, h⟩

theorem lands_bind {x : EStateM ε σ α} {f : α → EStateM ε σ β} {s : σ} (hx : Lands P R (x s))
    (hf : ∀ a s', P a s' → Lands P' R (f a s')) : Lands P' R ((x >>= f) s) := by
  change Lands P' R (EStateM.bind x f s)
  unfold EStateM.bind
  rcases hx.cases with ⟨a, s', hr, ha⟩ | ⟨e, s', hr, he⟩
  · rw [hr]
    exact hf a s' ha
  · rw [hr]
    exact he

/-- Steps that each deliver some bytes deliver them all, one after the other. -/
theorem lands_foldlM {I : Bytes → β → σ → Prop} {g : α → Bytes} {f : β → α → EStateM ε σ β}
    (hf : ∀ done b x s, I done b s → Lands (I (done ++ g x)) R (f b x s)) {done : Bytes} {b : β}
    {s : σ} (h : I done b s) (l : List α) : Lands (I (done ++ l.flatMap g)) R (l.foldlM f b s) := by
  induction l generalizing done b s with
  | nil =>
    rw [List.flatMap_nil, List.append_nil]
    exact h
  | cons x l ih =>
    rw [List.foldlM_cons, List.flatMap_cons, ← List.append_assoc]
    exact lands_bind (hf done b x s h) fun b' s' h' => ih h'

end Lands

namespace Csv

variable {σ : Type} {sink : Sink σ} {Q : Bytes → σ → Prop} {R : σ → Prop}

/-- A delivery that succeeds keeps `Q`, which is told what has been delivered in all; one that fails
leaves a state as in `R`. -/
def Sink.Keeps (sink : Sink σ) (Q : Bytes → σ → Prop) (R : σ → Prop) : Prop :=
  ∀ done bytes s, Q done s → Lands (fun _ => Q (done ++ bytes)) R (sink bytes s)

/-- What has been delivered and what is in the buffer is `done` together. -/
def Buffered (Q : Bytes → σ → Prop) (done : Bytes) (b : Buffer) (s : σ) : Prop :=
  ∃ sent, Q sent s ∧ sent ++ b.bytes = done

theorem Buffer.bytes_push (b : Buffer) (unit : Bytes) : (b.push unit).bytes = b.bytes ++ unit := by
  simp [bytes, push]

/-- A unit that is put into the buffer comes after all that was there. -/
theorem lands_put (h : sink.Keeps Q R) {done : Bytes} {b : Buffer} {s : σ}
    (hb : Buffered Q done b s) (unit : Bytes) :
    Lands (Buffered Q (done ++ unit)) R (put sink b unit s) := by
  obtain ⟨sent, hs, rfl⟩ := hb
  unfold put
  split
  · refine ⟨sent, hs, ?_⟩
    rw [Buffer.bytes_push, List.append_assoc]
  · refine lands_bind (h sent b.bytes s hs) fun _ s' hs' => ?_
    exact ⟨sent ++ b.bytes, hs', by rw [Buffer.bytes_push]; rfl⟩

/-- The units of a record are delivered in order. -/
theorem lands_writeRecord (h : sink.Keeps Q R) {done : Bytes} {b : Buffer} {s : σ}
    (hb : Buffered Q done b s) (record : List String) :
    Lands (Buffered Q (done ++ line record)) R (writeRecord sink b record s) := by
  have hl := lands_foldlM (I := Buffered Q) (g := id) (fun _ _ unit _ hb => lands_put h hb unit) hb
    (units record)
  rwa [List.flatMap_id] at hl

end Csv

namespace Table

variable {σ : Type} {sink : Csv.Sink σ} {Q : Bytes → σ → Prop} {R : σ → Prop}

/-- Every row has as many fields as the header. -/
theorem length_record (r : Row) : r.record.length = header.length := rfl

theorem length_of_mem_records {t : Table} {record : List String} (h : record ∈ t.records) :
    record.length = 8 := by
  rcases List.mem_cons.1 h with rfl | h
  · rfl
  · obtain ⟨row, -, rfl⟩ := List.mem_map.1 h
    exact length_record row

theorem ne_nil_of_mem_records {t : Table} {record : List String} (h : record ∈ t.records) :
    record ≠ [] :=
  List.ne_nil_of_length_eq_add_one (length_of_mem_records h)

/-- A record that is as long as the header is refused only by the sink. -/
theorem lands_writeRecord (h : sink.Keeps Q R) (context : Context) {done : Bytes}
    {b : Csv.Buffer} {s : σ} (hb : Csv.Buffered Q done b s) {record : List String}
    (hlength : record.length = header.length) :
    Lands (Csv.Buffered Q (done ++ Csv.line record)) R (writeRecord sink context b record s) := by
  unfold writeRecord
  rcases (Csv.lands_writeRecord h hb record).cases with ⟨b', s', hr, hb'⟩ | ⟨e, s', hr, he⟩
  · rw [hr]
    dsimp only
    rw [if_pos hlength]
    exact hb'
  · rw [hr]
    exact he

/-- What is in the buffer at the end is delivered. -/
theorem lands_writeEnd (h : sink.Keeps Q R) {done : Bytes} {b : Csv.Buffer} {s : σ}
    (hb : Csv.Buffered Q done b s) : Lands (fun _ => Q done) R (writeEnd sink b s) := by
  obtain ⟨sent, hsent, rfl⟩ := hb
  unfold writeEnd
  rcases (h sent b.bytes s hsent).cases with ⟨_, s', hr, hs'⟩ | ⟨e, s', hr, he⟩
  · rw [hr]
    exact hs'
  · rw [hr]
    exact he

theorem text_eq (t : Table) :
    t.text = Csv.line header ++ t.rows.flatMap fun row => Csv.line row.record := by
  rw [text, Csv.text, records, List.flatMap_cons, List.flatMap_map]

/-- After a table was written, its text has been delivered. If the write fails, it ends with the
delivery that failed. -/
theorem lands_write (h : sink.Keeps Q R) {done : Bytes} {s : σ} (hs : Q done s) (t : Table) :
    Lands (fun _ => Q (done ++ t.text)) R (t.write sink s) := by
  have hempty : Csv.Buffered Q done {} s := ⟨done, hs, List.append_nil done⟩
  refine lands_bind (lands_writeRecord h .recordHeader hempty rfl) fun b s' hb => ?_
  have hrows := lands_foldlM (I := Csv.Buffered Q)
    (fun _ _ row _ hb => lands_writeRecord h .recordRow hb (length_record row)) hb t.rows
  refine lands_bind hrows fun b s' hb => ?_
  rw [text_eq, ← List.append_assoc]
  exact lands_writeEnd h hb

end Table

end BenchSweep
