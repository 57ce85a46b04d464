import BenchSweep.Proofs.Csv.Delivery
import BenchSweep.Save

/-!
# How the save of a table fails

Every record of a table is as long as the header, so a table is written unless its receiver fails,
and it is saved unless a step of the system fails.

## Scope

A record that is longer or shorter than the ones before it would be refused by the writer, and this
is the one way in which a write could fail by the fault of the sweep. All records of a table have
the length of its header, by the definition of a row, so this does not happen, and only failures
from outside are left. They are needed where it is said how a checked sweep can fail.

## Main definitions

* `Failure.IsOutside`: a failure of the receiver or of the system.

## Main results

* `Table.isOutside_of_write`, `Table.isOutside_of_save`: the failures of a write and of a save.
-/

namespace BenchSweep

/-- A failure of what is outside: the receiver of a record, or the system. -/
def Failure.IsOutside (f : Failure) : Prop :=
  (∃ e, f.cause = .record e) ∨ ∃ e, f.cause = .system e

theorem error_or_of_bind {ε σ α β : Type} {x : EStateM ε σ α} {f : α → EStateM ε σ β} {s s' : σ}
    {e : ε} (h : (x >>= f) s = .error e s') :
    x s = .error e s' ∨ ∃ a t, x s = .ok a t ∧ f a t = .error e s' := by
  change EStateM.bind x f s = .error e s' at h
  rw [EStateM.bind] at h
  cases hx : x s with
  | ok a t =>
    rw [hx] at h
    exact .inr ⟨a, t, rfl, h⟩
  | error e' t =>
    rw [hx] at h
    cases h
    exact .inl rfl

namespace Table

variable {σ : Type} {sink : Csv.Sink σ} {f : Failure} {s s' : σ}

theorem isOutside_of_writeRecord {context : Context} {buffer : Csv.Buffer} {record : List String}
    (hlength : record.length = header.length)
    (h : writeRecord sink context buffer record s = .error f s') : f.IsOutside := by
  rw [writeRecord] at h
  split at h
  next e t hwrite =>
    cases h
    exact .inl ⟨e, rfl⟩
  next buffer' t hwrite =>
    rw [if_pos hlength] at h
    cases h

theorem isOutside_of_writeRows {rows : List Row} {buffer : Csv.Buffer}
    (h : rows.foldlM (fun buffer row => writeRecord sink .recordRow buffer row.record) buffer s =
      .error f s') : f.IsOutside := by
  induction rows generalizing buffer s with
  | nil => cases h
  | cons row rows ih =>
    rw [List.foldlM_cons] at h
    rcases error_or_of_bind h with hrow | ⟨buffer', t, -, hrows⟩
    · exact isOutside_of_writeRecord (length_record row) hrow
    · exact ih hrows

/-- A table is written unless its receiver fails. -/
theorem isOutside_of_write {t : Table} (h : t.write sink s = .error f s') : f.IsOutside := by
  rcases error_or_of_bind h with hheader | ⟨buffer, s₁, -, hrest⟩
  · exact isOutside_of_writeRecord rfl hheader
  rcases error_or_of_bind hrest with hrows | ⟨buffer', s₂, -, hend⟩
  · exact isOutside_of_writeRows hrows
  · rw [writeEnd] at hend
    split at hend
    next e t' hsink =>
      cases hend
      exact .inr ⟨e, rfl⟩
    next => cases hend

end Table

namespace Save

variable {m : Mishaps} {f : Failure} {t t' : Trace}

theorem isOutside_of_step {α : Type} {mishap : Option SystemError} {context : Context}
    {change : Disk → Except SystemError (α × Disk)}
    (h : step mishap context change t = .error f t') : f.IsOutside := by
  unfold step at h
  split at h
  next e =>
    cases h
    exact .inr ⟨e, rfl⟩
  next =>
    split at h
    next e he =>
      cases h
      exact .inr ⟨e, rfl⟩
    next => cases h

theorem isOutside_of_write {l : Location} {table : Table} (h : write m l table t = .error f t') :
    f.IsOutside := by
  rw [write] at h
  split at h
  next f' t₁ hwrite =>
    cases h
    exact Table.isOutside_of_write hwrite
  next =>
    split at h
    next e t₁ hflush =>
      cases h
      exact .inr ⟨e, rfl⟩
    next => cases h

end Save

/-- A table is saved unless a step of the system fails. -/
theorem Table.isOutside_of_save {m : Mishaps} {here : Location} {table : Table} {path : String}
    {f : Failure} {t t' : Trace} (h : table.save m here path t = .error f t') : f.IsOutside := by
  rw [save] at h
  split at h
  next => cases h
  next f' t₁ hsteps =>
    cases h
    rcases error_or_of_bind hsteps with hcreate | ⟨l, t₂, -, hrest⟩
    · exact Save.isOutside_of_step hcreate
    rcases error_or_of_bind hrest with hwrite | ⟨_, t₃, -, hrest⟩
    · exact Save.isOutside_of_write hwrite
    rcases error_or_of_bind hrest with hsync | ⟨_, t₄, -, hrename⟩
    · exact Save.isOutside_of_step hsync
    · exact Save.isOutside_of_step hrename

end BenchSweep
