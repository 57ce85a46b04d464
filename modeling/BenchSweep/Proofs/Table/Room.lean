import BenchSweep.Proofs.Csv.Refills
import Mathlib.Data.List.Basic

/-!
# A table in a fixed amount of room

A room takes bytes until it is full. It is all the same to it in which pieces they come: it takes as
many bytes of the text as there is room for, and it fails unless that is all of them. So a table is
reported as written exactly if its whole text is there. What is still in the buffer after a failure
may be delivered once more, which changes nothing, because the room is full.

## Why the pieces are named

A table that does not fit fails in the middle, and two things can be asked: what has arrived, and
which failure is reported. The first depends on the text alone. The second depends on where the
buffer was full, since a row that makes room fails as a row and the rest fails as the end. So the
pieces appear in the statement, with their sizes, and the text that has arrived is told without
them.

## Scope

Bytes that a full room is offered after a failure are dropped, in whatever number. A room is the
model of a buffer of a fixed size as well as of a disk that is full.

## Main results

* `Csv.forM_take`: what a room takes of any pieces.
* `Table.write_take_eq`: which failure a table meets.
* `Table.write_take`: a table that is written into a room.
-/

namespace BenchSweep

open Text (Bytes)

namespace Csv

theorem Room.take_of_le {bytes taken : Bytes} {left : ℕ} (h : bytes.length ≤ left) :
    Room.take bytes ⟨taken, left⟩ = .ok () ⟨taken ++ bytes, left - bytes.length⟩ := by
  rw [Room.take, if_pos h, List.take_of_length_le h]

theorem Room.take_of_lt {bytes taken : Bytes} {left : ℕ} (h : left < bytes.length) :
    Room.take bytes ⟨taken, left⟩ = .error .bufferFull ⟨taken ++ bytes.take left, 0⟩ := by
  rw [Room.take, if_neg (Nat.not_le.2 h), Nat.sub_eq_zero_of_le (Nat.le_of_lt h)]

/-- What an empty room takes of some bytes. -/
theorem Room.take_eq (bytes : Bytes) (room : ℕ) :
    Room.take bytes { left := room } =
      if bytes.length ≤ room then .ok () ⟨bytes, room - bytes.length⟩
      else .error .bufferFull ⟨bytes.take room, 0⟩ := by
  split
  next hle => exact take_of_le hle
  next hlt => exact take_of_lt (Nat.not_le.1 hlt)

/-- Bytes are taken one after the other. -/
theorem Room.take_append (first later : Bytes) :
    Room.take (first ++ later) = (do Room.take first; Room.take later) := by
  funext ⟨taken, left⟩
  change _ = EStateM.bind (Room.take first) (fun _ => Room.take later) ⟨taken, left⟩
  rw [EStateM.bind]
  rcases Nat.lt_or_ge left first.length with hfirst | hfirst
  · have hall : left < (first ++ later).length := by
      rw [List.length_append]
      omega
    rw [Room.take_of_lt hfirst, Room.take_of_lt hall,
      List.take_append_of_le_length (Nat.le_of_lt hfirst)]
  rw [Room.take_of_le hfirst]
  dsimp only
  have htake : (first ++ later).take left = first ++ later.take (left - first.length) := by
    rw [List.take_append, List.take_of_length_le hfirst]
  rcases Nat.lt_or_ge (left - first.length) later.length with hlater | hlater
  · have hall : left < (first ++ later).length := by
      rw [List.length_append]
      omega
    rw [Room.take_of_lt hlater, Room.take_of_lt hall, htake, List.append_assoc]
  · have hall : (first ++ later).length ≤ left := by
      rw [List.length_append]
      omega
    rw [Room.take_of_le hlater, Room.take_of_le hall, List.append_assoc, List.length_append,
      Nat.sub_sub]

/-- A room takes the bytes of any pieces as it takes them all at once. -/
theorem forM_take (pieces : List Bytes) :
    forM pieces Room.take = Room.take pieces.flatten := by
  induction pieces with
  | nil =>
    funext ⟨taken, left⟩
    rw [List.forM_nil, List.flatten_nil, Room.take_of_le (Nat.zero_le _), List.append_nil]
    rfl
  | cons piece pieces ih => rw [List.forM_cons, ih, List.flatten_cons, Room.take_append]

/-- A room that is full keeps what it has. -/
theorem lands_take_full (pieces : List Bytes) (taken : Bytes) :
    Lands (fun _ room => room.taken = taken) (fun room => room.taken = taken)
      (forM pieces Room.take ⟨taken, 0⟩) := by
  rw [forM_take]
  rcases Nat.eq_zero_or_pos pieces.flatten.length with hnil | hpos
  · rw [Room.take_of_le (Nat.le_of_eq hnil), List.length_eq_zero_iff.1 hnil]
    exact List.append_nil taken
  · rw [Room.take_of_lt hpos, List.take_zero]
    exact List.append_nil taken

end Csv

namespace Table

/-- What becomes of a table that is written into an empty room: it fails with a row if the room
ends in a refill of the buffer, and with its end if the room ends in the rest. -/
theorem write_take_eq (t : Table) (room : ℕ) :
    t.write Csv.Room.take { left := room } =
      if t.text.length ≤ room then .ok () ⟨t.text, room - t.text.length⟩
      else .error (if room < t.refills.1.flatten.length then ⟨[.recordRow], .record .bufferFull⟩
        else ⟨[.recordEnd], .system .bufferFull⟩) ⟨t.text.take room, 0⟩ := by
  rw [write_eq, Csv.forM_take]
  change EStateM.bind (EStateM.adaptExcept _ (Csv.Room.take _)) _ _ = _
  rw [EStateM.bind, EStateM.adaptExcept, ← t.flatten_refills, List.length_append]
  rcases Nat.lt_or_ge room t.refills.1.flatten.length with hlt | hge
  · rw [Csv.Room.take_of_lt hlt, if_neg (by omega), if_pos hlt,
      List.take_append_of_le_length (Nat.le_of_lt hlt)]
    rfl
  rw [Csv.Room.take_of_le hge, if_neg (Nat.not_lt.2 hge)]
  dsimp only
  rw [EStateM.adaptExcept]
  rcases Nat.lt_or_ge (room - t.refills.1.flatten.length) t.refills.2.length with hlt | hle
  · rw [Csv.Room.take_of_lt hlt, if_neg (by omega), List.take_append,
      List.take_of_length_le hge]
    rfl
  · rw [Csv.Room.take_of_le hle, if_pos (by omega), Nat.sub_sub]
    rfl

/-- **A table that is written into a fixed amount of room** has been written exactly if there is
room for its text. Then the text is there; otherwise as much of it as there is room for, and nothing
that is delivered later changes that. The failure is that of a row if the room ends in a refill of
the buffer, and that of the end if it ends in the rest. The refills and the rest are the text, cut
where the buffer was full up to one byte; any other cut gives the same. -/
theorem write_take (t : Table) (room : ℕ) :
    (t.write Csv.Room.take { left := room } =
      if t.text.length ≤ room then .ok () ⟨t.text, room - t.text.length⟩
      else .error (if room < t.refills.1.flatten.length then ⟨[.recordRow], .record .bufferFull⟩
        else ⟨[.recordEnd], .system .bufferFull⟩) ⟨t.text.take room, 0⟩) ∧
    (∀ leftovers : List Bytes,
      Lands (fun _ room' => room'.taken = t.text.take room)
        (fun room' => room'.taken = t.text.take room)
        (forM leftovers Csv.Room.take ⟨t.text.take room, 0⟩)) ∧
    t.refills.1.flatten ++ t.refills.2 = t.text ∧
    (∀ piece ∈ t.refills.1, 8191 ≤ piece.length ∧ piece.length ≤ 8192) ∧
    t.refills.2.length ≤ 8192 ∧
    ∀ pieces : List Bytes, pieces.flatten = t.text →
      forM pieces Csv.Room.take { left := room } =
        if t.text.length ≤ room then .ok () ⟨t.text, room - t.text.length⟩
        else .error .bufferFull ⟨t.text.take room, 0⟩ := by
  obtain ⟨hpieces, hrest⟩ := t.length_of_mem_refills
  refine ⟨t.write_take_eq room, fun leftovers => Csv.lands_take_full leftovers _,
    t.flatten_refills, fun piece hpiece => ?_, hrest, fun pieces hflatten => ?_⟩
  · exact ⟨Nat.le_of_succ_le_succ (hpieces piece hpiece).1, (hpieces piece hpiece).2⟩
  · rw [Csv.forM_take, hflatten, Csv.Room.take_eq]

end Table

end BenchSweep
