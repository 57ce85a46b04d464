import BenchSweep.Benchmark
import BenchSweep.Progress

/-!
# Runs in a window

The points of a sweep are run with a bounded number of them in a window. Points are taken in order.
A point in the window waits, then its benchmark is in flight, then its outcome is known. Outcomes
are read in the order of the points, whatever the order in which the runs end, and a point leaves
the window when its outcome is read. So the window is a stretch of the points: before it are the
points whose rows are in the table, after it those that have not been taken.

## Main definitions

* `Slot`: a point in the window.
* `Window`: the window with what is before and after it.
* `Window.run`: the script that runs all points.
-/

namespace BenchSweep

/-- A point in the window. -/
inductive Slot where
  | waiting (point : Point)
  | running (point : Point)
  | settled (point : Point) (outcome : Outcome)
  deriving Repr

namespace Slot

/-- The point of a slot. -/
def point : Slot → Point
  | waiting p => p
  | running p => p
  | settled p _ => p

/-- How many steps a slot is away from its end. -/
def work : Slot → Nat
  | waiting _ => 3
  | running _ => 2
  | settled _ _ => 1

/-- Whether the benchmark of a slot is in flight. -/
def isRunning : Slot → Bool
  | running _ => true
  | _ => false

end Slot

/-- The first waiting point of a list of slots, with the slots before and after it. -/
def splitWaiting : List Slot → Option (List Slot × Point × List Slot)
  | [] => none
  | .waiting p :: later => some ([], p, later)
  | slot :: later => (splitWaiting later).map fun (before, p, after) => (slot :: before, p, after)

/-- The running point of a given number, counted from zero, with the slots before and after it. -/
def splitRunning : Nat → List Slot → Option (List Slot × Point × List Slot)
  | _, [] => none
  | 0, .running p :: later => some ([], p, later)
  | n + 1, .running p :: later =>
    (splitRunning n later).map fun (before, q, after) => (.running p :: before, q, after)
  | n, slot :: later =>
    (splitRunning n later).map fun (before, q, after) => (slot :: before, q, after)

theorem eq_of_splitWaiting {slots before after : List Slot} {p : Point}
    (h : splitWaiting slots = some (before, p, after)) : slots = before ++ .waiting p :: after := by
  fun_induction splitWaiting slots generalizing before with
  | case1 => simp at h
  | case2 q later => simp_all
  | case3 slot later _ ih =>
    obtain ⟨⟨b, q, a⟩, hs, he⟩ := Option.map_eq_some_iff.1 h
    simp only [Prod.mk.injEq] at he
    obtain ⟨rfl, rfl, rfl⟩ := he
    simp [ih hs]

theorem eq_of_splitRunning {n : Nat} {slots before after : List Slot} {p : Point}
    (h : splitRunning n slots = some (before, p, after)) :
    slots = before ++ .running p :: after := by
  fun_induction splitRunning n slots generalizing before with
  | case1 => simp at h
  | case2 q later => simp_all
  | case3 n q later ih =>
    obtain ⟨⟨b, r, a⟩, hs, he⟩ := Option.map_eq_some_iff.1 h
    simp only [Prod.mk.injEq] at he
    obtain ⟨rfl, rfl, rfl⟩ := he
    simp [ih hs]
  | case4 n slot later _ _ ih =>
    obtain ⟨⟨b, r, a⟩, hs, he⟩ := Option.map_eq_some_iff.1 h
    simp only [Prod.mk.injEq] at he
    obtain ⟨rfl, rfl, rfl⟩ := he
    simp [ih hs]

/-- How many steps slots are away from their end. -/
def slotsWork : List Slot → Nat
  | [] => 0
  | slot :: later => slot.work + slotsWork later

theorem slotsWork_append (slots later : List Slot) :
    slotsWork (slots ++ later) = slotsWork slots + slotsWork later := by
  induction slots with
  | nil => exact (Nat.zero_add _).symm
  | cons slot rest ih =>
    rw [List.cons_append, slotsWork, slotsWork, ih, Nat.add_assoc]

theorem slotsWork_waiting (points : List Point) :
    slotsWork (points.map .waiting) = 3 * points.length := by
  induction points with
  | nil => rfl
  | cons p rest ih =>
    rw [List.map_cons, slotsWork, ih, Slot.work, List.length_cons]
    omega

/-- The window with what is before and after it. -/
structure Window where
  /-- The rows of the points before the window. -/
  table : Table
  progress : Progress
  /-- The points in the window, in order. -/
  slots : List Slot
  /-- The points after the window, in order. -/
  rest : List Point
  deriving Repr

namespace Window

/-- The window before anything has run. -/
def start (progress : Progress) (points : List Point) : Window :=
  ⟨{}, progress, [], points⟩

/-- The window with as many points taken as fit. -/
def refill (limit : Nat) (w : Window) : Window :=
  { w with
    slots := w.slots ++ (w.rest.take (limit - w.slots.length)).map .waiting
    rest := w.rest.drop (limit - w.slots.length) }

/-- The window after a row has been read from its first slot. -/
def read (w : Window) (row : Row) (later : List Slot) : Window :=
  { w with table := w.table.push row, progress := w.progress.advance, slots := later }

/-- How many steps are left at most. -/
def work (w : Window) : Nat :=
  4 * w.rest.length + slotsWork w.slots

theorem work_refill_le (limit : Nat) (w : Window) : (w.refill limit).work ≤ w.work := by
  simp only [work, refill, slotsWork_append, slotsWork_waiting, List.length_take, List.length_drop]
  omega

/-- The slot of a point after an attempt to start its benchmark. -/
def startedSlot (p : Point) : Except Failure Unit → Slot
  | .ok _ => .running p
  | .error f => .settled p (.error f)

theorem work_startedSlot_le (p : Point) (started : Except Failure Unit) :
    (startedSlot p started).work ≤ 2 := by
  cases started <;> simp [startedSlot, Slot.work]

/-- Runs the points of a window and those after it: reads the first slot when its outcome is known,
otherwise starts the first point that waits, and otherwise waits for a command in flight. -/
def run (c : Config) (dir : String) (limit : Nat) (w : Window) :
    Script (Progress × Except Failure Table) :=
  match _hf : w.refill limit with
  | ⟨table, progress, [], rest⟩ =>
    if rest = [] then .done (progress.finish, .ok table)
    else .done (progress, .error (.of .neverEnds))
  | ⟨_, progress, .settled _ (.error f) :: _, _⟩ => .cancel (.done (progress, .error f))
  | ⟨table, progress, .settled _ (.ok row) :: later, rest⟩ =>
    .note ⟨.info, .sweep, row.text⟩
      (run c dir limit ⟨table.push row, progress.advance, later, rest⟩)
  | ⟨table, progress, slot :: later, rest⟩ =>
    match _hw : splitWaiting (slot :: later) with
    | some (before, p, after) =>
      (startAt c dir p).run.bind fun started =>
        run c dir limit ⟨table, progress, before ++ startedSlot p started :: after, rest⟩
    | none =>
      .await (later.countP Slot.isRunning) fun i b =>
        match _hr : splitRunning i (slot :: later) with
        | none => .done (progress, .error (.of .neverEnds))
        | some (before, p, after) =>
          tellAll (eventsAt p b)
            (run c dir limit
              ⟨table, progress, before ++ .settled p (settleAt c p b) :: after, rest⟩)
termination_by w.work
decreasing_by
  all_goals
    refine Nat.lt_of_lt_of_le ?_ (work_refill_le limit w)
    rw [_hf]
  · simp only [work, slotsWork, Slot.work]
    omega
  · have hl := work_startedSlot_le p started
    rw [eq_of_splitWaiting _hw]
    simp only [work, slotsWork_append, slotsWork, Slot.work.eq_1]
    omega
  · rw [eq_of_splitRunning _hr]
    simp only [work, slotsWork_append, slotsWork, Slot.work]
    omega

end Window

end BenchSweep
