import BenchSweep.Proofs.Csv.Delivery
import BenchSweep.Proofs.Disk.Entries
import BenchSweep.Save

/-!
# Writing the temporary file

While a table is written, every tree differs from the first one in the temporary file only, wherever
the write fails and whatever the buffers still deliver then. If it does not fail, no delivery was
made to fail, and the file has got the text of the table.

## The invariant of a write

A table goes through a buffer to the file, and a delivery may fail at any point. `Writing` is the
state of a write that goes on: what is in the file and what is in the buffer give together what has
been written so far. `Broken` is the state after a failure, and says only that a delivery was made
to fail and that no other entry was touched; the buffers may then still deliver whatever they hold.
`Csv.Sink.Keeps` asks for exactly this pair, so the write of a table needs no induction of its own.

## Main definitions

* `Trace.All`: what holds of the present tree and of all past ones.
* `Save.Writing`, `Save.Broken`: a write that goes on, and one that has failed.

## Main results

* `Save.lands_write`: the trees of a write.
-/

namespace BenchSweep

open Text (Bytes)

/-- What holds of the present tree and of all past ones. -/
def Trace.All (P : Disk → Prop) (t : Trace) : Prop :=
  ∀ d ∈ t.disk :: t.past, P d

theorem Trace.all_start {P : Disk → Prop} {d : Disk} (h : P d) : Trace.All P { disk := d } :=
  List.forall_mem_singleton.2 h

theorem Trace.All.push {P : Disk → Prop} {t : Trace} (h : t.All P) {d : Disk} (hd : P d) :
    (t.push d).All P :=
  List.forall_mem_cons.2 ⟨hd, h⟩

theorem Trace.All.disk {P : Disk → Prop} {t : Trace} (h : t.All P) : P t.disk :=
  h t.disk List.mem_cons_self

namespace Save

/-- A write that goes on. Of a file at `l`, which was created in the tree `d₁`, the bytes `done`
have been written, and some of them are still in its buffer. The tree before the save is `d`. -/
structure Writing (m : Mishaps) (l : Location) (d d₁ : Disk) (done : Bytes) (t : Trace) :
    Prop where
  all : t.All (Disk.SameBut l d)
  exists_sent : ∃ sent, t.disk = d₁.append l sent ∧ sent ++ t.pending = done
  deliver_eq : ∀ n < t.deliveries, m.deliver n = none

/-- A write that has failed. -/
structure Broken (m : Mishaps) (l : Location) (d : Disk) (t : Trace) : Prop where
  all : t.All (Disk.SameBut l d)
  exists_deliver : ∃ n < t.deliveries, m.deliver n ≠ none

variable {m : Mishaps} {l : Location} {d d₁ : Disk} {done : Bytes} {t : Trace}

theorem all_append (h : t.All (Disk.SameBut l d)) (bytes : Bytes) :
    Disk.SameBut l d (t.disk.append l bytes) :=
  h.disk.trans (Disk.sameBut_append h.disk.isDirectory_eq' bytes)

/-- A delivery to the file takes the bytes that are next, or it has been made to fail. -/
theorem lands_deliver {sent : Bytes} (hall : t.All (Disk.SameBut l d))
    (hdisk : t.disk = d₁.append l sent) (hdeliver : ∀ n < t.deliveries, m.deliver n = none)
    (bytes : Bytes) :
    Lands (fun _ t' => t'.All (Disk.SameBut l d) ∧ t'.disk = d₁.append l (sent ++ bytes) ∧
      (∀ n < t'.deliveries, m.deliver n = none) ∧ t'.pending = t.pending) (Broken m l d)
      (deliver m l bytes t) := by
  unfold deliver
  cases hm : m.deliver t.deliveries with
  | some mishap =>
    obtain ⟨arrived, e⟩ := mishap
    refine ⟨hall.push (all_append hall _), t.deliveries, Nat.lt_succ_self _, ?_⟩
    rw [hm]
    exact Option.some_ne_none _
  | none =>
    refine ⟨hall.push (all_append hall _), ?_, fun n hn => ?_, rfl⟩
    · rw [← Disk.append_append, ← hdisk]
      rfl
    · rcases Nat.lt_succ_iff_lt_or_eq.1 hn with hlt | rfl
      · exact hdeliver n hlt
      · exact hm

/-- After a flush nothing is in the buffer. -/
theorem lands_flush (h : Writing m l d d₁ done t) :
    Lands (fun _ t' => Writing m l d d₁ done t' ∧ t'.pending = []) (Broken m l d)
      (flush m l t) := by
  unfold flush
  split
  next hnil => exact ⟨h, hnil⟩
  · obtain ⟨hall, ⟨sent, hdisk, rfl⟩, hdeliver⟩ := h
    rcases (lands_deliver hall hdisk hdeliver t.pending).cases with
      ⟨_, t', hr, hall', hdisk', hdeliver', -⟩ | ⟨e, t', hr, hbroken⟩
    · rw [hr]
      exact ⟨⟨hall', ⟨_, hdisk', List.append_nil _⟩, hdeliver'⟩, rfl⟩
    · rw [hr]
      exact hbroken

/-- Bytes that fit into the buffer come after those that are there. -/
theorem Writing.buffer (h : Writing m l d d₁ done t) (bytes : Bytes) :
    Writing m l d d₁ (done ++ bytes) { t with pending := t.pending ++ bytes } := by
  obtain ⟨hall, ⟨sent, hdisk, rfl⟩, hdeliver⟩ := h
  exact ⟨hall, ⟨sent, hdisk, (List.append_assoc ..).symm⟩, hdeliver⟩

/-- When there is room for all bytes, or the buffer was delivered, nothing is in it if the bytes
fill a whole buffer. -/
theorem lands_room (h : Writing m l d d₁ done t) (bytes : Bytes) :
    Lands (fun _ t' => Writing m l d d₁ done t' ∧
        (Csv.bufferSize ≤ bytes.length → t'.pending = [])) (Broken m l d)
      (if Csv.bufferSize < t.pending.length + bytes.length then flush m l t else .ok () t) := by
  split
  · rcases (lands_flush h).cases with ⟨_, t', hr, hw, hnil⟩ | ⟨e, t', hr, hbroken⟩
    · rw [hr]
      exact ⟨hw, fun _ => hnil⟩
    · rw [hr]
      exact hbroken
  · refine ⟨h, fun hfull => List.length_eq_zero_iff.1 ?_⟩
    omega

/-- A file behind its buffer takes all bytes in order. -/
theorem intoFile_keeps (m : Mishaps) (l : Location) (d d₁ : Disk) :
    (intoFile m l).Keeps (Writing m l d d₁) (Broken m l d) := by
  intro done bytes t h
  unfold intoFile
  split
  · exact h.buffer bytes
  rcases (lands_room h bytes).cases with ⟨_, t', hr, hw, hnil⟩ | ⟨e, t', hr, hbroken⟩
  · rw [hr]
    dsimp only
    split
    next hfull =>
      obtain ⟨hall, ⟨sent, hdisk, hsent⟩, hdeliver⟩ := hw
      rw [hnil hfull, List.append_nil] at hsent
      subst hsent
      rcases (lands_deliver hall hdisk hdeliver bytes).cases with
        ⟨_, t'', hd, hall', hdisk', hdeliver', hpending⟩ | ⟨e, t'', hd, hbroken⟩
      · rw [hd]
        refine ⟨hall', ⟨_, hdisk', ?_⟩, hdeliver'⟩
        rw [hpending, hnil hfull, List.append_nil]
      · rw [hd]
        exact hbroken
    · exact hw.buffer bytes
  · rw [hr]
    exact hbroken

/-- What is left in the buffers changes nothing but the file. -/
theorem Broken.leave (h : Broken m l d t) : Broken m l d (leave m l t) := by
  unfold Save.leave
  generalize m.leftovers = leftovers
  induction leftovers generalizing t with
  | nil => exact h
  | cons bytes leftovers ih =>
    exact ih ⟨h.all.push (all_append h.all bytes), h.exists_deliver⟩

/-- The trees of a write: the file has got the text of the table, or a delivery was made to fail. -/
theorem lands_write (table : Table) (h : Writing m l d d₁ [] t) :
    Lands (fun _ t' => Writing m l d d₁ table.text t' ∧ t'.pending = []) (Broken m l d)
      (write m l table t) := by
  unfold write
  rcases (Table.lands_write (intoFile_keeps m l d d₁) h table).cases with
    ⟨_, t', hr, htable⟩ | ⟨f, t', hr, hbroken⟩
  · rw [hr]
    dsimp only
    rcases (lands_flush htable).cases with ⟨_, t'', hf, hflush⟩ | ⟨e, t'', hf, hbroken⟩
    · rw [hf]
      exact hflush
    · rw [hf]
      exact hbroken.leave
  · rw [hr]
    exact hbroken.leave

end Save

end BenchSweep
