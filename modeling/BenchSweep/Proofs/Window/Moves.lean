import BenchSweep.Proofs.Script.Ledger
import BenchSweep.Window
import Mathlib.Logic.Function.Iterate

/-!
# The moves of a window

Four things can happen to a window: a point is taken, a waiting point is started, a running one
settles, and the row at the front is read. `Window.run` does them in one order, which depends only
on the order in which the runs end. Here they may come in any order that the window allows, so that
what is shown holds however the runs are driven.

The window is bound to the ledger of launched commands. The commands of the points that were read
come first in the ledger, then those of the points in the window that have been started; points that
wait are the last ones of the window and have no command yet. `Window.Sound` says so, and every move
keeps it.

## Why the order of moves is left open

A window is driven by one loop, but what is shown of sweeps should not depend on this loop. Each of
the four moves is possible whenever the window allows it. So the settled runs need not be looked at
in the order in which they ended, and a point may wait while there is room. What holds of all
sequences of moves holds of the loop, and of loops that would be written in another way.

## The invariant

A trial is a run that was started, with its fate once it is known. `Account` splits all trials into
those that were read and those in the window, and says what the ledger, the slots, the rows and the
progress are in terms of them; the points that wait come after. Every move changes one of the parts
at one end, or the fate of one trial, so `Window.Step.sound` has one case for each.

## Main definitions

* `Config.commandAt`: the command of the benchmark at a point.
* `Window.Step`, `Window.Steps`, `Window.Stops`: one move, some moves, and the end of a window.
* `Window.Sound`: the invariant of the moves.

## Main results

* `Window.Step.sound`, `Window.Steps.sound`: what one move keeps, all moves keep.
-/

namespace BenchSweep

/-- The command of the benchmark at a point. -/
def Config.commandAt (c : Config) (dir : String) (p : Point) : Command :=
  ⟨c.benchmark.headD "", c.benchmark.tail ++ c.argsAt p, dir⟩

/-- What a run gives, by the fate of its command. -/
def outcomeOf (c : Config) (p : Point) : Except SystemError Behaviour → Outcome
  | .error e => .error ⟨[.starting p.text], .system e⟩
  | .ok b => settleAt c p b

/-- The point of a row is the one that was run. -/
theorem point_eq_of_outcomeOf {c : Config} {p : Point} {fate : Except SystemError Behaviour}
    {row : Row} (h : outcomeOf c p fate = .ok row) : row.point = p := by
  cases fate with
  | error e => cases h
  | ok b =>
    simp only [outcomeOf, settleAt, bind, Except.bind] at h
    split at h
    · cases h
    · split at h
      · split at h <;> cases h
        rfl
      · cases h

/-- What is told before the benchmark is started at a point. -/
def Config.startEvent (c : Config) (dir : String) (p : Point) : Event :=
  ⟨.debug, .command, (c.commandAt dir p).describe c.benchmark.tail (c.argsAt p)⟩

/-- What the answer to a launch means for the start at a point. -/
def startedAs (p : Point) : Option SystemError → Except Failure Unit
  | none => .ok ()
  | some e => .error ⟨[.starting p.text], .system e⟩

/-- A benchmark that has a program is started by telling of it and launching its command. -/
theorem startAt_run {c : Config} (hc : c.benchmark ≠ []) (dir : String) (p : Point) :
    (startAt c dir p).run = .note (c.startEvent dir p)
      (.launch (c.commandAt dir p) c.timeout fun refusal => .done (startedAs p refusal)) := by
  obtain ⟨program, leading, hb⟩ := List.exists_cons_of_ne_nil hc
  rw [startAt, Attempt.run_bind, hb, Command.prepare, Attempt.run_bind, Attempt.run_tell,
    Config.startEvent, Config.commandAt, hb]
  refine congrArg (Script.note _) (congrArg (Script.launch _ _) ?_)
  funext refusal
  cases refusal <;> rfl

/-- The acts of the start of a benchmark that has a program. -/
theorem startAt_ends_iff {c : Config} (hc : c.benchmark ≠ []) {dir : String} {p : Point}
    {acts : List Act} {started : Except Failure Unit} :
    (startAt c dir p).run.Ends acts started ↔
      ∃ refusal, acts = [.told (c.startEvent dir p),
        .launched (c.commandAt dir p) c.timeout refusal] ∧ started = startedAs p refusal := by
  rw [startAt_run hc]
  constructor
  · intro h
    obtain ⟨rest, rfl, hlaunch⟩ := Script.ends_note_iff.1 h
    obtain ⟨refusal, rest, rfl, hdone⟩ := Script.ends_launch_iff.1 hlaunch
    obtain ⟨rfl, rfl⟩ := Script.ends_done_iff.1 hdone
    exact ⟨refusal, rfl, rfl⟩
  · rintro ⟨refusal, rfl, rfl⟩
    exact .note (.launch refusal (.refl _))

/-! ### Trials -/

/-- A run of the benchmark that was started, and the fate of its command if it has met it. -/
structure Trial where
  point : Point
  fate? : Option (Except SystemError Behaviour)

namespace Trial

/-- The entry of the command of a trial. -/
def launch (c : Config) (dir : String) (t : Trial) : Launch where
  command := c.commandAt dir t.point
  limit := c.timeout
  stand :=
    match t.fate? with
    | none => .inFlight
    | some fate => .ofFate fate

/-- The slot of a trial. -/
def slot (c : Config) (t : Trial) : Slot :=
  match t.fate? with
  | none => .running t.point
  | some fate => .settled t.point (outcomeOf c t.point fate)

/-- What a trial gave, once it has met its fate. -/
def outcome? (c : Config) (t : Trial) : Option Outcome :=
  t.fate?.map (outcomeOf c t.point)

@[simp] theorem point_slot (c : Config) (t : Trial) : (t.slot c).point = t.point := by
  unfold slot
  split <;> rfl

theorem slot_ne_waiting (c : Config) (t : Trial) (p : Point) : t.slot c ≠ .waiting p := by
  unfold slot
  split <;> simp

theorem isRunning_slot (c : Config) (dir : String) (t : Trial) :
    (t.slot c).isRunning = (t.launch c dir).isInFlight := by
  obtain ⟨p, fate?⟩ := t
  rcases fate? with _ | (_ | _) <;> rfl

theorem eq_of_slot_eq_running {c : Config} {t : Trial} {p : Point} (h : t.slot c = .running p) :
    t = ⟨p, none⟩ := by
  obtain ⟨q, fate?⟩ := t
  cases fate? with
  | none => simpa [slot] using h
  | some fate => simp [slot] at h

theorem outcome?_of_slot_eq_settled {c : Config} {t : Trial} {p : Point} {o : Outcome}
    (h : t.slot c = .settled p o) : t.point = p ∧ t.outcome? c = some o := by
  obtain ⟨q, fate?⟩ := t
  cases fate? with
  | none => simp [slot] at h
  | some fate =>
    simp only [slot, Slot.settled.injEq] at h
    exact ⟨h.1, congrArg some h.2⟩

/-- Nothing is in flight of trials that have given something. -/
theorem inFlight_map_launch {c : Config} (dir : String) {trials : List Trial}
    (h : ∀ t ∈ trials, t.outcome? c ≠ none) :
    Ledger.inFlight (trials.map (launch c dir)) = 0 := by
  rw [Ledger.inFlight, List.countP_eq_zero]
  intro l hl
  obtain ⟨t, ht, rfl⟩ := List.mem_map.1 hl
  have hn := h t ht
  obtain ⟨p, fate?⟩ := t
  rcases fate? with _ | (_ | _)
  · exact absurd rfl hn
  · simp [launch, Launch.isInFlight, Stand.ofFate]
  · simp [launch, Launch.isInFlight, Stand.ofFate]

theorem countP_map_slot (c : Config) (dir : String) (trials : List Trial) :
    (trials.map (slot c)).countP Slot.isRunning =
      Ledger.inFlight (trials.map (launch c dir)) := by
  rw [Ledger.inFlight, List.countP_map, List.countP_map]
  congr 1
  funext t
  exact isRunning_slot c dir t

end Trial

namespace Window

/-! ### Moves -/

/-- One move of a window, with its acts. -/
inductive Step (c : Config) (dir : String) (limit : Nat) : Window → List Act → Window → Prop
  /-- A point is taken if there is room. -/
  | take {w : Window} {p : Point} {rest : List Point} (hroom : w.slots.length < limit)
      (hrest : w.rest = p :: rest) :
      Step c dir limit w [] { w with slots := w.slots ++ [.waiting p], rest }
  /-- The first point that waits is started. -/
  | start {w : Window} {before after : List Slot} {p : Point} {acts : List Act}
      {started : Except Failure Unit} (hslots : w.slots = before ++ .waiting p :: after)
      (hfirst : ∀ q, .waiting q ∉ before) (hacts : (startAt c dir p).run.Ends acts started) :
      Step c dir limit w acts { w with slots := before ++ startedSlot p started :: after }
  /-- A run ends. -/
  | settle {w : Window} {before after : List Slot} {p : Point} (b : Behaviour)
      (hslots : w.slots = before ++ .running p :: after) :
      Step c dir limit w (.awaited (before.countP Slot.isRunning) b :: (eventsAt p b).map .told)
        { w with slots := before ++ .settled p (settleAt c p b) :: after }
  /-- The row at the front is read. -/
  | read {w : Window} {later : List Slot} {p : Point} {row : Row}
      (hslots : w.slots = .settled p (.ok row) :: later) :
      Step c dir limit w [.told ⟨.info, .sweep, row.text⟩] (w.read row later)

/-- Some moves of a window, with their acts. -/
inductive Steps (c : Config) (dir : String) (limit : Nat) : Window → List Act → Window → Prop
  | refl (w : Window) : Steps c dir limit w [] w
  | head {w w' w'' : Window} {acts more : List Act} (h : Step c dir limit w acts w')
      (h' : Steps c dir limit w' more w'') : Steps c dir limit w (acts ++ more) w''

/-- The end of a window: every point has been read, or the point at the front has failed. -/
inductive Stops : Window → List Act → Progress × Except Failure Table → Prop
  | finish {w : Window} (hslots : w.slots = []) (hrest : w.rest = []) :
      Stops w [] (w.progress.finish, .ok w.table)
  | fail {w : Window} {p : Point} {f : Failure} {later : List Slot}
      (hslots : w.slots = .settled p (.error f) :: later) :
      Stops w [.cancelled] (w.progress, .error f)

theorem Steps.trans {c : Config} {dir : String} {limit : Nat} {w w' w'' : Window}
    {acts more : List Act} (h : Steps c dir limit w acts w') (h' : Steps c dir limit w' more w'') :
    Steps c dir limit w (acts ++ more) w'' := by
  induction h with
  | refl => exact h'
  | head hs _ ih =>
    rw [List.append_assoc]
    exact .head hs (ih h')

/-! ### The invariant -/

/-- A window and the ledger of its commands, for the points that were given and the progress at
the start. The trials `done` have been read, `live` are those in the window, and the points
`waiting` have been taken and not been started. -/
structure Account (c : Config) (dir : String) (limit : Nat) (points : List Point)
    (first : Progress) (l : Ledger) (w : Window) (done live : List Trial)
    (waiting : List Point) : Prop where
  ledger_eq : l = (done ++ live).map (Trial.launch c dir)
  slots_eq : w.slots = live.map (Trial.slot c) ++ waiting.map .waiting
  /-- The rows are what the trials gave that were read. -/
  rows_eq : done.map (Trial.outcome? c) = w.table.rows.map fun row => some (.ok row)
  points_eq : (done ++ live).map Trial.point ++ (waiting ++ w.rest) = points
  length_le : w.slots.length ≤ limit
  progress_eq : w.progress = Progress.advance^[w.table.rows.length] first

/-- The invariant of the moves. -/
def Sound (c : Config) (dir : String) (limit : Nat) (points : List Point) (first : Progress)
    (l : Ledger) (w : Window) : Prop :=
  ∃ done live waiting, Account c dir limit points first l w done live waiting

variable {c : Config} {dir : String} {limit : Nat} {points : List Point} {first : Progress}
  {l : Ledger} {w w' : Window}

theorem sound_start (c : Config) (dir : String) (limit : Nat) (points : List Point)
    (first : Progress) : Sound c dir limit points first [] (start first points) :=
  ⟨[], [], [], rfl, rfl, rfl, rfl, Nat.zero_le _, rfl⟩

namespace Account

variable {done live : List Trial} {waiting : List Point}

/-- Every trial that was read has given something. -/
theorem outcome?_ne_none (h : Account c dir limit points first l w done live waiting) :
    ∀ t ∈ done, t.outcome? c ≠ none := by
  intro t ht hn
  have hm : none ∈ done.map (Trial.outcome? c) := hn ▸ List.mem_map_of_mem ht
  rw [h.rows_eq] at hm
  simp at hm

theorem length_done (h : Account c dir limit points first l w done live waiting) :
    done.length = w.table.rows.length := by
  have hl := congrArg List.length h.rows_eq
  simpa using hl

/-- The slots before the first that waits are those of the trials in the window. -/
theorem split_waiting (h : Account c dir limit points first l w done live waiting)
    {before after : List Slot} {p : Point} (hslots : w.slots = before ++ .waiting p :: after)
    (hfirst : ∀ q, .waiting q ∉ before) :
    ∃ others, waiting = p :: others ∧ before = live.map (Trial.slot c) ∧
      after = others.map .waiting := by
  have he := h.slots_eq.symm.trans hslots
  rcases List.append_eq_append_iff.1 he with ⟨mid, hb, hw⟩ | ⟨mid, hs, hw⟩
  · cases mid with
    | nil =>
      obtain ⟨q, others, rfl, hq, rfl⟩ := List.map_eq_cons_iff.1 hw
      exact ⟨others, by simpa using hq, by simpa using hb, rfl⟩
    | cons slot mid =>
      obtain ⟨q, others, rfl, rfl, -⟩ := List.map_eq_cons_iff.1 hw
      exact absurd (by simp [hb]) (hfirst q)
  · cases mid with
    | nil =>
      obtain ⟨q, others, rfl, hq, rfl⟩ := List.map_eq_cons_iff.1 hw.symm
      exact ⟨others, by simpa using hq, by simpa using hs.symm, rfl⟩
    | cons slot mid =>
      obtain ⟨rfl, -⟩ := List.cons.inj hw
      have hm : Slot.waiting p ∈ live.map (Trial.slot c) := by simp [hs]
      obtain ⟨t, -, ht⟩ := List.mem_map.1 hm
      exact absurd ht (t.slot_ne_waiting c p)

/-- A running slot is that of a trial that has not met its fate. -/
theorem split_running (h : Account c dir limit points first l w done live waiting)
    {before after : List Slot} {p : Point} (hslots : w.slots = before ++ .running p :: after) :
    ∃ earlier later, live = earlier ++ ⟨p, none⟩ :: later ∧
      before = earlier.map (Trial.slot c) ∧
      after = later.map (Trial.slot c) ++ waiting.map .waiting := by
  have he := h.slots_eq.symm.trans hslots
  rcases List.append_eq_append_iff.1 he with ⟨mid, hb, hw⟩ | ⟨mid, hs, hw⟩
  · have hm : Slot.running p ∈ waiting.map Slot.waiting := by simp [hw]
    simp at hm
  · cases mid with
    | nil =>
      have hm : Slot.running p ∈ waiting.map Slot.waiting := by
        rw [List.nil_append] at hw
        simp [← hw]
      simp at hm
    | cons slot mid =>
      obtain ⟨rfl, rfl⟩ := List.cons.inj hw
      obtain ⟨earlier, rest, rfl, rfl, hr⟩ := List.map_eq_append_iff.1 hs
      obtain ⟨t, later, rfl, ht, rfl⟩ := List.map_eq_cons_iff.1 hr
      exact ⟨earlier, later, by rw [Trial.eq_of_slot_eq_running ht], rfl, rfl⟩

/-- A settled slot at the front is that of the first trial in the window. -/
theorem split_settled (h : Account c dir limit points first l w done live waiting)
    {later : List Slot} {p : Point} {o : Outcome} (hslots : w.slots = .settled p o :: later) :
    ∃ t others, live = t :: others ∧ t.point = p ∧ t.outcome? c = some o ∧
      later = others.map (Trial.slot c) ++ waiting.map .waiting := by
  have he := h.slots_eq.symm.trans hslots
  cases live with
  | nil =>
    have hm : Slot.settled p o ∈ waiting.map Slot.waiting := by
      rw [List.map_nil, List.nil_append] at he
      simp [he]
    simp at hm
  | cons t others =>
    obtain ⟨ht, hl⟩ := List.cons.inj he
    obtain ⟨hp, ho⟩ := Trial.outcome?_of_slot_eq_settled ht
    exact ⟨t, others, rfl, hp, ho, hl.symm⟩

end Account

/-- One move keeps the invariant. -/
theorem Step.sound (hc : c.benchmark ≠ []) {acts : List Act} (h : Step c dir limit w acts w')
    (hs : Sound c dir limit points first l w) :
    Sound c dir limit points first (acts.foldl Ledger.record l) w' := by
  obtain ⟨done, live, waiting, ha⟩ := hs
  cases h with
  | @take p rest hroom hrest =>
    refine ⟨done, live, waiting ++ [p], ha.ledger_eq, ?_, ha.rows_eq, ?_, ?_, ha.progress_eq⟩
    · simp [ha.slots_eq]
    · simpa [hrest] using ha.points_eq
    · simp
      omega
  | @start before after p acts started hslots hfirst hacts =>
    obtain ⟨others, rfl, rfl, rfl⟩ := ha.split_waiting hslots hfirst
    obtain ⟨refusal, rfl, rfl⟩ := (startAt_ends_iff hc).1 hacts
    refine ⟨done, live ++ [⟨p, refusal.map .error⟩], others, ?_, ?_, ha.rows_eq, ?_, ?_,
      ha.progress_eq⟩
    · cases refusal <;> simp [Ledger.record, ha.ledger_eq, Trial.launch, Stand.ofFate]
    · cases refusal <;> simp [Trial.slot, startedSlot, startedAs, outcomeOf]
    · simpa using ha.points_eq
    · have hl := ha.length_le
      rw [hslots] at hl
      simpa using hl
  | @settle before after p b hslots =>
    obtain ⟨earlier, later, rfl, rfl, rfl⟩ := ha.split_running hslots
    refine ⟨done, earlier ++ ⟨p, some (.ok b)⟩ :: later, waiting, ?_, ?_, ha.rows_eq, ?_, ?_,
      ha.progress_eq⟩
    · have hn : (earlier.map (Trial.slot c)).countP Slot.isRunning =
          Ledger.inFlight ((done ++ earlier).map (Trial.launch c dir)) := by
        rw [Trial.countP_map_slot c dir, List.map_append, Ledger.inFlight_append,
          Trial.inFlight_map_launch dir ha.outcome?_ne_none, Nat.zero_add]
      have hl : l = (done ++ earlier).map (Trial.launch c dir) ++
          Trial.launch c dir ⟨p, none⟩ :: later.map (Trial.launch c dir) := by
        simp [ha.ledger_eq]
      rw [List.foldl_cons, Ledger.record, Ledger.foldl_record_told, hn, hl,
        Ledger.settle_append_cons rfl]
      simp [Trial.launch, Stand.ofFate]
    · simp [Trial.slot, outcomeOf]
    · simpa using ha.points_eq
    · have hl := ha.length_le
      rw [hslots] at hl
      simpa using hl
  | @read later p row hslots =>
    obtain ⟨t, others, rfl, rfl, ho, rfl⟩ := ha.split_settled hslots
    refine ⟨done ++ [t], others, waiting, ?_, rfl, ?_, ?_, ?_, ?_⟩
    · simp [Ledger.record, ha.ledger_eq]
    · simp [ha.rows_eq, ho, Window.read, Table.push]
    · simpa [Window.read] using ha.points_eq
    · have hl := ha.length_le
      rw [hslots] at hl
      exact Nat.le_of_succ_le hl
    · simp [Window.read, Table.push, ha.progress_eq, Function.iterate_succ_apply']

/-- What one move keeps, all moves keep. -/
theorem Steps.sound (hc : c.benchmark ≠ []) {acts : List Act} (h : Steps c dir limit w acts w')
    (hs : Sound c dir limit points first l w) :
    Sound c dir limit points first (acts.foldl Ledger.record l) w' := by
  induction h generalizing l with
  | refl => exact hs
  | head hstep _ ih =>
    rw [List.foldl_append]
    exact ih (hstep.sound hc hs)

end Window

end BenchSweep
