import BenchSweep.Proofs.Grid.Points
import BenchSweep.Proofs.Window.Run
import BenchSweep.Sweep
import Mathlib.Data.List.TakeDrop

/-!
# What runs when

At every moment of a sweep two numbers tell all about its points: `e` of them have been read and `n`
have been taken, each in the order of the grid. Between the two lies the window, which is never
longer than the limit. So a failure at point `k` comes at most `limit - 1` points too late, and one
point at a time means one after the other.

## Why two numbers

A window has waiting, running and settled points in it, and points go through these states in
different orders. What does not depend on this is how many have been taken from the grid and how
many have been read from the front. The points between the two are the window, so their number is
bounded by the limit, and the rows, the progress and the commands are functions of the two numbers
and of who waits. `Window.Stretch` lists all this; every statement about the schedule is read off
it.

## Why moves and not runs

The script of a sweep drives its window in one order, and what is said of this script would hold for
this order only. The moves leave the order open. `Window.course_of_ends_run` says that the script is
one way to move, so what is shown of all moves is shown of the script, and of any other way to drive
the window.

## Main definitions

* `Window.Stretch`: the two numbers, with what they say of the window and of the commands.
* `Sweep.Comes`: a window that the points of a sweep come to by moves.

## Main results

* `Window.Sound.exists_stretch`: every window that moves lead to has its two numbers.
* `Sweep.runPoints_schedule`: the schedule of a sweep, whatever comes first.
-/

namespace BenchSweep

/-! ### Counters -/

/-- A counter that starts at zero counts its steps, up to its limit. -/
theorem Progress.position_iterate_advance {p : Progress} (hp : p.position = 0) {n : Nat}
    (hn : n ≤ limit) : (advance^[n] p).position = n := by
  induction n with
  | zero => exact hp
  | succ n ih =>
    rw [Function.iterate_succ_apply', advance, ih (by omega)]
    exact Nat.min_eq_right hn

namespace Slot

/-- Whether a slot has been started. -/
def isStarted : Slot → Bool
  | waiting _ => false
  | _ => true

end Slot

namespace Window

variable {c : Config} {dir : String} {limit : Nat} {points : List Point} {first : Progress}
  {l : Ledger} {w : Window}

/-- The first `e` points have been read and the first `n` have been taken. The ledger is that of
the commands so far. -/
structure Stretch (c : Config) (dir : String) (limit : Nat) (points : List Point)
    (first : Progress) (l : Ledger) (w : Window) (e n : Nat) : Prop where
  le : e ≤ n
  size_eq : w.table.size = e
  le_length : n ≤ points.length
  /-- The window is the stretch between what has been read and what has been taken. -/
  slots_eq : w.slots.map Slot.point = (points.take n).drop e
  rest_eq : w.rest = points.drop n
  bounded : n - e ≤ limit
  /-- The table has the rows of the points that were read, in order. -/
  rows_eq : w.table.rows.map Row.point = points.take e
  progress_eq : w.progress = Progress.advance^[e] first
  position_eq : first.position = 0 → e ≤ Progress.limit → w.progress.position = e
  /-- The commands are those of the first points, each once and in order; of the points that were
  taken, only those that wait have none. -/
  commands_eq : l.map Launch.command =
    (points.take (e + w.slots.countP Slot.isStarted)).map (c.commandAt dir)
  /-- The command of a point that was read has ended, and the row is what it gave. -/
  row_of_command : ∀ (i : Nat) (row : Row), w.table.rows[i]? = some row →
    ∃ (launch : Launch) (b : Behaviour), l[i]? = some launch ∧ launch.stand = .ended b ∧
      settleAt c row.point b = .ok row
  inFlight_le : Ledger.inFlight l ≤ n - e

namespace Account

variable {done live : List Trial} {waiting : List Point}

/-- A row and the trial that gave it. -/
theorem getElem?_done (h : Account c dir limit points first l w done live waiting) {i : Nat}
    {row : Row} (hrow : w.table.rows[i]? = some row) :
    ∃ b, done[i]? = some ⟨row.point, some (.ok b)⟩ ∧ settleAt c row.point b = .ok row := by
  have hi := congrArg (·[i]?) h.rows_eq
  simp only [List.getElem?_map, hrow, Option.map_some] at hi
  obtain ⟨⟨p, fate?⟩, ht, ho⟩ := Option.map_eq_some_iff.1 hi
  obtain ⟨fate, hf, ho⟩ := Option.map_eq_some_iff.1 ho
  obtain rfl : row.point = p := point_eq_of_outcomeOf ho
  cases fate with
  | error e => cases ho
  | ok b =>
    simp only at hf
    exact ⟨b, by rw [ht, hf], ho⟩

theorem map_point_rows (h : Account c dir limit points first l w done live waiting) :
    w.table.rows.map Row.point = done.map Trial.point := by
  refine List.ext_getElem? fun i => ?_
  rw [List.getElem?_map, List.getElem?_map]
  cases hrow : w.table.rows[i]? with
  | none =>
    rw [List.getElem?_eq_none_iff, ← h.length_done] at hrow
    rw [List.getElem?_eq_none_iff.2 hrow]
    rfl
  | some row =>
    obtain ⟨b, hd, -⟩ := h.getElem?_done hrow
    rw [hd]
    rfl

/-- The slots of trials have been started, and those of waiting points have not. -/
theorem countP_isStarted (h : Account c dir limit points first l w done live waiting) :
    w.slots.countP Slot.isStarted = live.length := by
  have hlive : (live.map (Trial.slot c)).countP Slot.isStarted = live.length := by
    rw [List.countP_map, List.countP_eq_length]
    intro t _
    obtain ⟨p, _ | fate⟩ := t <;> rfl
  have hwaiting : (waiting.map Slot.waiting).countP Slot.isStarted = 0 := by
    rw [List.countP_map, List.countP_eq_zero]
    simp [Slot.isStarted]
  rw [h.slots_eq, List.countP_append, hlive, hwaiting, Nat.add_zero]

/-- The two numbers of a window are those of the trials that were read and of all points taken. -/
theorem stretch (h : Account c dir limit points first l w done live waiting) :
    Stretch c dir limit points first l w done.length
      (done.length + (live.length + waiting.length)) := by
  have hpoints : points = done.map Trial.point ++
      (live.map Trial.point ++ (waiting ++ w.rest)) := by
    simp [← h.points_eq]
  have hslots : w.slots.length = live.length + waiting.length := by simp [h.slots_eq]
  have hle := h.length_le
  constructor
  case le => omega
  case size_eq => exact h.length_done.symm
  case le_length =>
    rw [hpoints]
    simp
  case slots_eq =>
    have hlive : (live.map (Trial.slot c)).map Slot.point = live.map Trial.point := by
      simp [Function.comp_def]
    have hwaiting : (waiting.map Slot.waiting).map Slot.point = waiting := by
      rw [List.map_map]
      exact List.map_id waiting
    rw [hpoints, h.slots_eq, List.map_append, hlive, hwaiting, ← List.append_assoc (live.map _),
      List.take_append, List.take_of_length_le (by simp), List.length_map,
      Nat.add_sub_cancel_left, List.take_left' (by simp), List.drop_left' (by simp)]
  case rest_eq =>
    rw [hpoints, ← List.append_assoc, ← List.append_assoc, List.drop_left' (by simp)]
  case bounded => omega
  case rows_eq => rw [hpoints, List.take_left' (by simp), h.map_point_rows]
  case progress_eq => rw [h.progress_eq, h.length_done]
  case position_eq =>
    intro hzero hlimit
    rw [h.progress_eq, ← h.length_done, Progress.position_iterate_advance hzero hlimit]
  case commands_eq =>
    rw [h.countP_isStarted, hpoints, ← List.append_assoc, List.take_left' (by simp), h.ledger_eq]
    simp [Trial.launch, Function.comp_def]
  case row_of_command =>
    intro i row hrow
    obtain ⟨b, hd, ho⟩ := h.getElem?_done hrow
    have hi : i < done.length := (List.getElem?_eq_some_iff.1 hd).1
    refine ⟨Trial.launch c dir ⟨row.point, some (.ok b)⟩, b, ?_, rfl, ho⟩
    rw [h.ledger_eq, List.map_append, List.getElem?_append_left (by simpa using hi),
      List.getElem?_map, hd]
    rfl
  case inFlight_le =>
    rw [h.ledger_eq, List.map_append, Ledger.inFlight_append,
      Trial.inFlight_map_launch dir h.outcome?_ne_none]
    have hlive := List.countP_le_length (p := Launch.isInFlight)
      (l := live.map (Trial.launch c dir))
    rw [List.length_map] at hlive
    rw [Ledger.inFlight]
    omega

/-- The trial whose slot is at the front comes after those that were read. -/
theorem getElem?_of_settled (h : Account c dir limit points first l w done live waiting)
    {later : List Slot} {p : Point} {o : Outcome} (hslots : w.slots = .settled p o :: later) :
    points[w.table.rows.length]? = some p ∧
      ∃ launch fate, l[w.table.rows.length]? = some launch ∧ launch.stand = .ofFate fate ∧
        outcomeOf c p fate = o := by
  obtain ⟨⟨q, fate?⟩, others, rfl, rfl, ho, -⟩ := h.split_settled hslots
  obtain ⟨fate, rfl, ho⟩ := Option.map_eq_some_iff.1 ho
  rw [← h.length_done]
  refine ⟨?_, Trial.launch c dir ⟨q, some fate⟩, fate, ?_, rfl, ho⟩
  · simp [← h.points_eq]
  · simp [h.ledger_eq]

/-- What was launched was read or stands before the first point that waits. -/
theorem length_of_waiting (h : Account c dir limit points first l w done live waiting)
    {before after : List Slot} {p : Point} (hslots : w.slots = before ++ .waiting p :: after)
    (hfirst : ∀ q, .waiting q ∉ before) : l.length = w.table.rows.length + before.length := by
  obtain ⟨others, -, rfl, -⟩ := h.split_waiting hslots hfirst
  simp [h.ledger_eq, h.length_done]

end Account

/-- Every window that moves lead to has its two numbers. -/
theorem Sound.exists_stretch (h : Sound c dir limit points first l w) :
    ∃ e n, Stretch c dir limit points first l w e n := by
  obtain ⟨done, live, waiting, ha⟩ := h
  exact ⟨_, _, ha.stretch⟩

/-- A window that is empty, with no point after it, has read all points. -/
theorem Stretch.eq_length {e n : Nat} (h : Stretch c dir limit points first l w e n)
    (hslots : w.slots = []) (hrest : w.rest = []) : e = points.length ∧ n = points.length := by
  have hdrop := congrArg List.length h.slots_eq
  have hlast := congrArg List.length h.rest_eq
  have hle := h.le
  have hle_length := h.le_length
  rw [hslots] at hdrop
  rw [hrest] at hlast
  simp only [List.map_nil, List.length_nil, List.length_drop, List.length_take] at hdrop hlast
  omega

/-- Nothing is in flight when a window stops. -/
theorem Sound.inFlight_of_stops (h : Sound c dir limit points first l w) {acts : List Act}
    {r : Progress × Except Failure Table} (hstop : Stops w acts r) :
    Ledger.inFlight (acts.foldl Ledger.record l) = 0 := by
  cases hstop with
  | finish hslots hrest =>
    obtain ⟨e, n, hn⟩ := h.exists_stretch
    obtain ⟨rfl, rfl⟩ := hn.eq_length hslots hrest
    have hflight := hn.inFlight_le
    rw [Nat.sub_self] at hflight
    exact Nat.le_zero.1 hflight
  | fail hslots => exact Ledger.inFlight_map_kill l

/-- The commands of a window that failed at point `k` are those of points before `k + limit`. -/
theorem Sound.length_of_failed (h : Sound c dir limit points first l w) {acts : List Act}
    {progress : Progress} {f : Failure} (hstop : Stops w acts (progress, .error f)) :
    acts = [.cancelled] ∧ progress = w.progress ∧
    (∃ p launch fate, points[w.table.rows.length]? = some p ∧
      l[w.table.rows.length]? = some launch ∧ launch.stand = .ofFate fate ∧
      outcomeOf c p fate = .error f) ∧
    (acts.foldl Ledger.record l).length ≤ w.table.rows.length + limit := by
  obtain ⟨done, live, waiting, ha⟩ := h
  generalize hr : (progress, Except.error f) = r at hstop
  cases hstop with
  | finish => cases hr
  | @fail p _ later hslots =>
    cases hr
    obtain ⟨hp, launch, fate, hl, hs, ho⟩ := ha.getElem?_of_settled hslots
    refine ⟨rfl, rfl, ⟨p, launch, fate, hp, hl, hs, ho⟩, ?_⟩
    have hlive := congrArg List.length ha.slots_eq
    have hle := ha.length_le
    rw [List.foldl_cons, List.foldl_nil, Ledger.record, List.length_map, ha.ledger_eq]
    simp only [List.length_append, List.length_map, ha.length_done] at hlive ⊢
    omega

/-- With room for one point, a command is launched only after every earlier one has ended and its
row has been read. -/
theorem Sound.ended_of_launched (h : Sound c dir 1 points first l w)
    {acts : List Act} {w' : Window} (hstep : Step c dir 1 w acts w') {command : Command}
    {time : Option Duration} {refusal : Option SystemError}
    (hmem : .launched command time refusal ∈ acts) {i : Nat} {launch : Launch}
    (hl : l[i]? = some launch) :
    ∃ p b row, points[i]? = some p ∧ launch.stand = .ended b ∧ settleAt c p b = .ok row := by
  have hsound := h
  obtain ⟨done, live, waiting, ha⟩ := h
  cases hstep with
  | take => cases hmem
  | @settle before after p b hslots => simp at hmem
  | read => simp at hmem
  | @start before after p acts started hslots hfirst hacts =>
    have hlen := ha.length_of_waiting hslots hfirst
    have hle := ha.length_le
    rw [hslots, List.length_append, List.length_cons] at hle
    have hi : i < w.table.rows.length := by
      have hlt := (List.getElem?_eq_some_iff.1 hl).1
      omega
    obtain ⟨e, n, hn⟩ := hsound.exists_stretch
    obtain ⟨launch', b, hl', hb, hrow⟩ := hn.row_of_command i _ (List.getElem?_eq_getElem hi)
    obtain rfl : launch = launch' := Option.some.inj (hl.symm.trans hl')
    refine ⟨_, b, _, ?_, hb, hrow⟩
    have hpoint := congrArg (·[i]?) hn.rows_eq
    simp only [List.getElem?_map, List.getElem?_eq_getElem hi, Option.map_some,
      List.getElem?_take] at hpoint
    split at hpoint
    · exact hpoint.symm
    · cases hpoint

/-! ### Moves that are cut short -/

/-- In the middle of a move, the ledger is that before the move or that after it. -/
theorem Step.foldl_of_prefix (hc : c.benchmark ≠ []) {acts first : List Act} {w' : Window}
    (h : Step c dir limit w acts w') (hf : first <+: acts) (l : Ledger) :
    first.foldl Ledger.record l = l ∨
      first.foldl Ledger.record l = acts.foldl Ledger.record l := by
  cases h with
  | take =>
    obtain rfl := List.prefix_nil.1 hf
    exact .inl rfl
  | start hslots hfirst hacts =>
    obtain ⟨refusal, rfl, -⟩ := (startAt_ends_iff hc).1 hacts
    rcases List.prefix_cons_iff.1 hf with rfl | ⟨more, rfl, hmore⟩
    · exact .inl rfl
    · rcases List.prefix_cons_iff.1 hmore with rfl | ⟨last, rfl, hlast⟩
      · exact .inl rfl
      · obtain rfl := List.prefix_nil.1 hlast
        exact .inr rfl
  | settle b hslots =>
    rcases List.prefix_cons_iff.1 hf with rfl | ⟨more, rfl, hmore⟩
    · exact .inl rfl
    · obtain ⟨events, -, rfl⟩ := List.prefix_map_iff.1 hmore
      exact .inr (by simp)
  | read hslots =>
    rcases List.prefix_cons_iff.1 hf with rfl | ⟨more, rfl, hmore⟩
    · exact .inl rfl
    · obtain rfl := List.prefix_nil.1 hmore
      exact .inr rfl

/-- In the middle of some moves, the ledger is that after the first ones of them. -/
theorem Steps.exists_of_prefix (hc : c.benchmark ≠ []) {acts first : List Act} {w' : Window}
    (h : Steps c dir limit w acts w') (hf : first <+: acts) (l : Ledger) :
    ∃ moves w'', Steps c dir limit w moves w'' ∧
      first.foldl Ledger.record l = moves.foldl Ledger.record l := by
  induction h generalizing first l with
  | refl w =>
    obtain rfl := List.prefix_nil.1 hf
    exact ⟨[], w, .refl w, rfl⟩
  | @head w w' w'' acts more hstep hsteps ih =>
    rcases List.prefix_or_prefix_of_prefix hf (List.prefix_append acts more) with hshort | hlong
    · rcases hstep.foldl_of_prefix hc hshort l with hl | hl
      · exact ⟨[], w, .refl w, hl⟩
      · exact ⟨acts ++ [], w', .head hstep (.refl w'), by simpa using hl⟩
    · obtain ⟨later, rfl⟩ := hlong
      obtain ⟨moves, v, hmoves, hl⟩ :=
        ih ((List.prefix_append_right_inj acts).1 hf) (acts.foldl Ledger.record l)
      exact ⟨acts ++ moves, v, .head hstep hmoves, by rw [List.foldl_append, List.foldl_append, hl]⟩

end Window

/-! ### The schedule of a sweep -/

namespace Sweep

variable {s : Sweep}

/-- Some moves lead from the start of a sweep to a window. -/
def Comes (s : Sweep) (progress : Progress) (moves : List Act) (w : Window) : Prop :=
  Window.Steps s.config s.dir s.config.parallel.toNat (.start progress s.config.grid.points) moves w

/-- The invariant holds of every window of a sweep. -/
theorem Comes.sound (hbench : s.config.benchmark ≠ []) {progress : Progress} {moves : List Act}
    {w : Window} (h : s.Comes progress moves w) :
    w.Sound s.config s.dir s.config.parallel.toNat s.config.grid.points progress
      (Ledger.ofActs moves) :=
  Window.Steps.sound hbench h (Window.sound_start ..)

/-- The acts of a sweep are the telling of its size, moves, and the end of the window. -/
theorem comes_of_ends_runPoints (hpar : s.config.parallel ≠ 0) {progress : Progress}
    {acts : List Act} {r : Progress × Except Failure Table}
    (h : (s.runPoints progress).Ends acts r) :
    ∃ moves last w, acts = .told ⟨.info, .sweep, gridText s.config.grid⟩ :: (moves ++ last) ∧
      s.Comes progress moves w ∧ w.Stops last r := by
  have hlimit : 0 < s.config.parallel.toNat := by
    refine Nat.pos_of_ne_zero fun hz => hpar ?_
    exact UInt64.toNat_inj.1 hz
  obtain ⟨rest, rfl, hrun⟩ := Script.ends_note_iff.1 h
  obtain ⟨moves, last, w, rfl, hsteps, hstop⟩ := Window.course_of_ends_run hlimit hrun
  exact ⟨moves, last, w, rfl, hsteps, hstop⟩

/-- A sweep that has not ended has the ledger of some moves. -/
theorem exists_comes_of_reaches (hbench : s.config.benchmark ≠ []) (hpar : s.config.parallel ≠ 0)
    {progress : Progress} {acts : List Act} {t : Script (Progress × Except Failure Table)}
    (h : (s.runPoints progress).Reaches acts t) :
    (∃ moves w, s.Comes progress moves w ∧ Ledger.ofActs acts = Ledger.ofActs moves) ∨
      ∃ r, t = .done r := by
  obtain ⟨more, r, hmore⟩ := t.exists_ends
  obtain ⟨moves, last, w, he, hcomes, hstop⟩ := comes_of_ends_runPoints hpar (h.trans hmore)
  have hprefix := List.prefix_append acts more
  rw [he] at hprefix
  rcases List.prefix_cons_iff.1 hprefix with rfl | ⟨first, rfl, hfirst⟩
  · exact .inl ⟨[], _, .refl _, rfl⟩
  · rcases List.prefix_or_prefix_of_prefix hfirst (List.prefix_append moves last) with hf | hf
    · obtain ⟨moves', w', hsteps, hl⟩ := Window.Steps.exists_of_prefix hbench hcomes hf []
      exact .inl ⟨moves', w', hsteps, hl⟩
    · obtain ⟨later, rfl⟩ := hf
      have hlast : later ++ more = last := by simpa using he
      cases hstop with
      | finish =>
        obtain ⟨rfl, rfl⟩ := List.append_eq_nil_iff.1 hlast
        exact .inl ⟨moves, w, hcomes, by simp [Ledger.ofActs, Ledger.record]⟩
      | @fail p f rest hslots =>
        rcases List.append_eq_cons_iff.1 hlast with ⟨rfl, -⟩ | ⟨later, rfl, hnil⟩
        · exact .inl ⟨moves, w, hcomes, by simp [Ledger.ofActs, Ledger.record]⟩
        · obtain ⟨rfl, rfl⟩ := List.append_eq_nil_iff.1 hnil.symm
          exact .inr ⟨_, Script.reaches_nil_iff.1 hmore⟩

/-- **The schedule of a sweep.** At every moment of a sweep the ledger is that of some moves, and a
sweep that ends has done moves up to a window that stops. Whatever the order of the moves, `e`
points have been read and `n` have been taken, both from the start of the grid. Nothing is in flight
after the end; a failure is that of the first point that was not read, and no command of a point
further than the limit was launched; with room for one point, a command is launched only after all
others have ended well. -/
theorem runPoints_schedule (hbench : s.config.benchmark ≠ []) (hpar : s.config.parallel ≠ 0)
    (progress : Progress) :
    (∀ (i : Nat) (p : Point), s.config.grid.points[i]? = some p → p.index = i) ∧
    (∀ acts t, (s.runPoints progress).Reaches acts t →
      (∃ moves w, s.Comes progress moves w ∧ Ledger.ofActs acts = Ledger.ofActs moves) ∨
        ∃ r, t = .done r) ∧
    (∀ acts r, (s.runPoints progress).Ends acts r →
      ∃ moves last w, acts = .told ⟨.info, .sweep, gridText s.config.grid⟩ :: (moves ++ last) ∧
        s.Comes progress moves w ∧ w.Stops last r) ∧
    ∀ moves w, s.Comes progress moves w →
      (∃ e n, w.Stretch s.config s.dir s.config.parallel.toNat s.config.grid.points progress
        (Ledger.ofActs moves) e n) ∧
      (∀ last r, w.Stops last r → Ledger.inFlight (Ledger.ofActs (moves ++ last)) = 0) ∧
      (∀ last progress' f, w.Stops last (progress', .error f) →
        last = [.cancelled] ∧ progress' = w.progress ∧
        (∃ p launch fate, s.config.grid.points[w.table.rows.length]? = some p ∧
          (Ledger.ofActs moves)[w.table.rows.length]? = some launch ∧
          launch.stand = .ofFate fate ∧ outcomeOf s.config p fate = .error f) ∧
        (Ledger.ofActs (moves ++ last)).length ≤
          w.table.rows.length + s.config.parallel.toNat) ∧
      (s.config.parallel = 1 → ∀ acts w' command time refusal,
        w.Step s.config s.dir 1 acts w' → .launched command time refusal ∈ acts →
        ∀ (i : Nat) (launch : Launch), (Ledger.ofActs moves)[i]? = some launch →
          ∃ p b row, s.config.grid.points[i]? = some p ∧ launch.stand = .ended b ∧
            settleAt s.config p b = .ok row) := by
  refine ⟨fun i p => Grid.index_of_getElem?, fun acts t => exists_comes_of_reaches hbench hpar,
    fun acts r => comes_of_ends_runPoints hpar, fun moves w h => ⟨?_, ?_, ?_, ?_⟩⟩
  · exact (h.sound hbench).exists_stretch
  · intro last r hstop
    rw [Ledger.ofActs_append]
    exact (h.sound hbench).inFlight_of_stops hstop
  · intro last progress' f hstop
    rw [Ledger.ofActs_append]
    exact (h.sound hbench).length_of_failed hstop
  · intro hone acts w' command time refusal hstep hmem i launch hl
    have hsound := h.sound hbench
    rw [hone] at hsound
    exact hsound.ended_of_launched hstep hmem hl

/-- Two commands are launched, the first overruns its time limit, and the second is killed. -/
theorem runPoints_schedule_overrun :
    let s : Sweep := ⟨{ parallel := 2, timeoutSeconds := some 1 }, "/work"⟩
    ∃ moves w f, s.Comes .hidden moves w ∧ w.Stops [.cancelled] (.hidden, .error f) ∧
      Ledger.inFlight (Ledger.ofActs moves) = 1 ∧
      Ledger.inFlight (Ledger.ofActs (moves ++ [.cancelled])) = 0 := by
  intro s
  have hbench : s.config.benchmark ≠ [] := by decide
  have hpar : s.config.parallel ≠ 0 := by decide
  obtain ⟨p, q, rest, hpoints⟩ : ∃ p q rest, s.config.grid.points = p :: q :: rest :=
    ⟨_, _, _, rfl⟩
  have hstart (r : Point) := (@startAt_ends_iff _ hbench s.dir r _ _).2 ⟨none, rfl, rfl⟩
  have hcomes : s.Comes .hidden _ _ :=
    .head (.take (show 0 < 2 by decide) hpoints) <|
    .head (.take (show 1 < 2 by decide) rfl) <|
    .head (@Window.Step.start _ _ _ _ [] [.waiting q] p _ _ rfl (by simp) (hstart p)) <|
    .head (@Window.Step.start _ _ _ _ [.running p] [] q _ _ rfl (by simp) (hstart q)) <|
    .head (@Window.Step.settle _ _ _ _ [] [.running q] p .overran rfl) (.refl _)
  have hstop : Window.Stops _ [.cancelled] (_, .error _) :=
    @Window.Stops.fail ⟨{}, .hidden, [.settled p (settleAt s.config p .overran), .running q], rest⟩
      p _ _ rfl
  refine ⟨_, _, _, hcomes, hstop, rfl, ?_⟩
  exact ((runPoints_schedule hbench hpar .hidden).2.2.2 _ _ hcomes).2.1 _ _ hstop

end Sweep

end BenchSweep
