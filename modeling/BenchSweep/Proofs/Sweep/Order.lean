import BenchSweep.Proofs.Sweep.Schedule

/-!
# Sweeps in parallel give what sweeps in order give

The runs of a sweep may end in any order, and which points are started at all depends on it. What a
sweep gives does not: it is fixed by what the runs at the points would give, and it is what a sweep
gives that runs one point after the other. The outcomes are read in the order of the grid, so the
first failure in this order ends the sweep, whatever failed earlier in time.

## Why fates are fixed

To say that the order does not matter, the same runs have to be compared in different orders. So a
fate is fixed, which says for each point what its command will do, and every sweep that keeps to it
is considered, under any bound and with any order of the ends. The verdict is computed from the fate
alone. A failure at a point may be known long before those of earlier points, and still the first
one in the order of the grid is the verdict.

## How the proof goes

The invariant of the moves (`Window.Sound`) says that the rows of a window are those of its first
points, so when the window stops, its rows and the point in front agree with the fate. This settles
the verdict, whatever the moves were. That there is an end at all is shown apart
(`exists_ends_runPoints`), since a statement about all ends would hold of a sweep that has none.

## Main definitions

* `runInOrder`: runs points one after the other.
* `Sweep.verdict`: what a sweep gives by the outcomes of its points.
* `Sweep.withParallel`: a sweep with another bound on the runs in flight.

## Main results

* `Window.run_one`: a window with room for one point is a loop.
* `Sweep.verdict_of_comes`: whatever the order of the moves, a sweep ends with its verdict.
* `Sweep.runPoints_eq_inOrder`: all bounds and all orders give the same.
-/

namespace BenchSweep

/-- Runs points one after the other, up to the first failure. -/
def runInOrder (c : Config) (dir : String) :
    List Point → Progress → Table → Script (Progress × Except Failure Table)
  | [], progress, table => .done (progress.finish, .ok table)
  | p :: rest, progress, table =>
    (runPoint c dir p).run.bind fun
      | .error f => .cancel (.done (progress, .error f))
      | .ok row => .note ⟨.info, .sweep, row.text⟩
          (runInOrder c dir rest progress.advance (table.push row))

namespace Window

/-- A window with room for one point whose outcome is known. -/
theorem run_one_settled (c : Config) (dir : String) (table : Table) (progress : Progress)
    (p : Point) (o : Outcome) (rest : List Point) :
    run c dir 1 ⟨table, progress, [.settled p o], rest⟩ = match o with
      | .error f => .cancel (.done (progress, .error f))
      | .ok row => .note ⟨.info, .sweep, row.text⟩
          (run c dir 1 ⟨table.push row, progress.advance, [], rest⟩) := by
  have hf : refill 1 ⟨table, progress, [.settled p o], rest⟩ =
      ⟨table, progress, [.settled p o], rest⟩ := by simp [refill]
  cases o with
  | error f => exact run_of_failed hf
  | ok row => exact run_of_row hf

/-- A window with room for one point is a loop. -/
theorem run_one (c : Config) (dir : String) (table : Table) (progress : Progress)
    (rest : List Point) :
    run c dir 1 ⟨table, progress, [], rest⟩ = runInOrder c dir rest progress table := by
  induction rest generalizing table progress with
  | nil =>
    have hf : refill 1 ⟨table, progress, [], []⟩ = ⟨table, progress, [], []⟩ := rfl
    rw [run_of_nil hf, if_pos rfl, runInOrder]
  | cons p rest ih =>
    have hslot : ∀ q o, Slot.waiting p ≠ .settled q o := by simp
    rw [run_of_waiting hslot rfl rfl, runInOrder, runPoint, Attempt.run_bind, Script.bind_assoc]
    refine congrArg _ (funext fun started => ?_)
    cases started with
    | error f => exact run_one_settled c dir table progress p (.error f) rest
    | ok _ =>
      have hf : refill 1 ⟨table, progress, [.running p], rest⟩ =
          ⟨table, progress, [.running p], rest⟩ := by simp [refill]
      refine (run_of_running (by simp) hf rfl).trans ?_
      refine congrArg (Script.await 0) (funext fun i => funext fun b => ?_)
      obtain ⟨i, hi⟩ := i
      obtain rfl : i = 0 := Nat.lt_one_iff.1 hi
      refine congrArg (tellAll (eventsAt p b)) ?_ |>.trans (Script.tellAll_bind ..).symm
      refine (run_one_settled c dir table progress p (settleAt c p b) rest).trans ?_
      show _ = Script.bind (.done (settleAt c p b)) _
      cases settleAt c p b with
      | error f => rfl
      | ok row => exact congrArg _ (ih ..)

end Window

/-! ### Verdicts -/

namespace Sweep

/-- The rows before the first failure. -/
def rowsOf : List Outcome → List Row
  | .ok row :: later => row :: rowsOf later
  | _ => []

/-- The first failure. -/
def failureOf? : List Outcome → Option Failure
  | [] => none
  | .ok _ :: later => failureOf? later
  | .error f :: _ => some f

/-- What a sweep gives by the outcomes of its points. -/
def verdict (progress : Progress) (outcomes : List Outcome) : Progress × Except Failure Table :=
  match failureOf? outcomes with
  | none => (progress.finish, .ok ⟨rowsOf outcomes⟩)
  | some f => (Progress.advance^[(rowsOf outcomes).length] progress, .error f)

theorem rowsOf_append (rows : List Row) (later : List Outcome) :
    rowsOf (rows.map .ok ++ later) = rows ++ rowsOf later := by
  induction rows with
  | nil => rfl
  | cons row rows ih => exact congrArg (row :: ·) ih

theorem failureOf?_append (rows : List Row) (later : List Outcome) :
    failureOf? (rows.map .ok ++ later) = failureOf? later := by
  induction rows with
  | nil => rfl
  | cons row rows ih => exact ih

/-- If all points give rows, the rows are the table. -/
theorem verdict_of_rows (progress : Progress) {outcomes : List Outcome} {rows : List Row}
    (h : outcomes = rows.map .ok) :
    verdict progress outcomes = (progress.finish, .ok ⟨rows⟩) ∧ rowsOf outcomes = rows := by
  have hrows : rowsOf outcomes = rows := by
    rw [h, ← List.append_nil (rows.map _), rowsOf_append]
    exact List.append_nil rows
  have hnone : failureOf? outcomes = none := by
    rw [h, ← List.append_nil (rows.map _), failureOf?_append]
    rfl
  rw [verdict, hnone, hrows]
  exact ⟨rfl, rfl⟩

/-- The first failure decides, whatever the points after it would give. -/
theorem verdict_of_failure (progress : Progress) {outcomes : List Outcome} {rows : List Row}
    {f : Failure} {later : List Outcome} (h : outcomes = rows.map .ok ++ .error f :: later) :
    verdict progress outcomes = (Progress.advance^[rows.length] progress, .error f) ∧
      rowsOf outcomes = rows := by
  have hrows : rowsOf outcomes = rows := by
    rw [h, rowsOf_append]
    exact List.append_nil rows
  have hsome : failureOf? outcomes = some f := by
    rw [h, failureOf?_append]
    rfl
  rw [verdict, hsome, hrows]
  exact ⟨rfl, rfl⟩

end Sweep

/-! ### What is told -/

/-- What is told of a row. -/
def Row.event (r : Row) : Event :=
  ⟨.info, .sweep, r.text⟩

/-- Nothing for the user is told of the end of a run. -/
theorem filterMap_info?_eventsAt (p : Point) (b : Behaviour) :
    ((eventsAt p b).map Act.told).filterMap Act.info? = [] := by
  cases b with
  | overran => rfl
  | ended ending =>
    simp only [eventsAt]
    split <;> rfl

theorem Progress.finish_iterate_advance (p : Progress) (n : Nat) :
    (advance^[n] p).finish = p.finish := by
  induction n with
  | zero => rfl
  | succ n ih =>
    rw [Function.iterate_succ_apply', ← ih]
    rfl

namespace Window

variable {c : Config} {dir : String} {limit : Nat} {points : List Point} {first : Progress}
  {l : Ledger} {w w' : Window} {acts : List Act}

/-- One move tells the user of the row that it reads, and of nothing else. -/
theorem Step.events_eq (hc : c.benchmark ≠ []) (h : Step c dir limit w acts w') :
    w'.table.rows.map Row.event = w.table.rows.map Row.event ++ acts.filterMap Act.info? := by
  cases h with
  | take => exact (List.append_nil _).symm
  | start hslots hfirst hacts =>
    obtain ⟨refusal, rfl, -⟩ := (startAt_ends_iff hc).1 hacts
    exact (List.append_nil _).symm
  | settle b hslots =>
    rw [List.filterMap_cons_none rfl, filterMap_info?_eventsAt, List.append_nil]
  | @read later p row hslots => exact List.map_append

theorem Steps.events_eq (hc : c.benchmark ≠ []) (h : Steps c dir limit w acts w') :
    w'.table.rows.map Row.event = w.table.rows.map Row.event ++ acts.filterMap Act.info? := by
  induction h with
  | refl w => exact (List.append_nil _).symm
  | head hstep _ ih => rw [ih, hstep.events_eq hc, List.filterMap_append, List.append_assoc]

/-! ### Outcomes along a fate -/

namespace Account

variable {done live : List Trial} {waiting : List Point} {fate : Fate}

/-- The trials that were read have given what the fate has for their points. -/
theorem take_map_outcome (h : Account c dir limit points first l w done live waiting)
    (hindex : ∀ (i : Nat) (p : Point), points[i]? = some p → p.index = i) (ha : l.Agrees fate) :
    (points.map fun p => outcomeOf c p (fate p.index)).take w.table.rows.length =
      w.table.rows.map .ok := by
  rw [← h.length_done]
  refine List.ext_getElem? fun i => ?_
  rw [List.getElem?_take, List.getElem?_map, List.getElem?_map]
  split
  next hi =>
    have hrow : i < w.table.rows.length := h.length_done ▸ hi
    obtain ⟨b, hd, ho⟩ := h.getElem?_done (List.getElem?_eq_getElem hrow)
    have hp : points[i]? = some (w.table.rows[i]).point := by
      rw [← h.points_eq, List.getElem?_append_left (by simp; omega), List.getElem?_map,
        List.getElem?_append_left hi, hd]
      rfl
    have hl : l[i]? = some (Trial.launch c dir ⟨(w.table.rows[i]).point, some (.ok b)⟩) := by
      rw [h.ledger_eq, List.getElem?_map, List.getElem?_append_left hi, hd]
      rfl
    have hf : fate i = .ok b := Stand.agrees_ofFate_iff.1 (ha i _ hl)
    rw [hp, List.getElem?_eq_getElem hrow, Option.map_some, Option.map_some, hindex i _ hp, hf]
    exact congrArg some ho
  next hi =>
    rw [h.length_done] at hi
    rw [List.getElem?_eq_none_iff.2 (by omega)]
    rfl

end Account

/-- Whatever the order of the moves, the end of a window is the verdict. -/
theorem Sound.eq_verdict (h : Sound c dir limit points first l w) {fate : Fate}
    (hindex : ∀ (i : Nat) (p : Point), points[i]? = some p → p.index = i) {last : List Act}
    (ha : (last.foldl Ledger.record l).Agrees fate) {r : Progress × Except Failure Table}
    (hstop : Stops w last r) :
    r = Sweep.verdict first (points.map fun p => outcomeOf c p (fate p.index)) ∧
      Sweep.rowsOf (points.map fun p => outcomeOf c p (fate p.index)) = w.table.rows := by
  obtain ⟨done, live, waiting, hacc⟩ := h
  cases hstop with
  | finish hslots hrest =>
    have htake := hacc.take_map_outcome hindex ha
    have hnil : live.map (Trial.slot c) ++ waiting.map Slot.waiting = [] :=
      hacc.slots_eq.symm.trans hslots
    simp only [List.append_eq_nil_iff, List.map_eq_nil_iff] at hnil
    obtain ⟨rfl, rfl⟩ := hnil
    have hlen : points.length = w.table.rows.length := by
      rw [← hacc.points_eq, hrest, ← hacc.length_done]
      simp
    rw [List.take_of_length_le (by simp [hlen])] at htake
    obtain ⟨hv, hr⟩ := Sweep.verdict_of_rows first htake
    rw [hv, hacc.progress_eq, Progress.finish_iterate_advance]
    exact ⟨rfl, hr⟩
  | @fail p f later hslots =>
    have hagrees : l.Agrees fate := Ledger.agrees_map_kill_iff.1 ha
    have htake := hacc.take_map_outcome hindex hagrees
    obtain ⟨hp, launch, x, hl, hstand, ho⟩ := hacc.getElem?_of_settled hslots
    have hx : fate w.table.rows.length = x := by
      have hmeets := hagrees _ _ hl
      rw [hstand] at hmeets
      exact Stand.agrees_ofFate_iff.1 hmeets
    have houtcomes : points.map (fun p => outcomeOf c p (fate p.index)) =
        w.table.rows.map .ok ++ .error f ::
          (points.map fun p => outcomeOf c p (fate p.index)).drop (w.table.rows.length + 1) := by
      refine (List.take_append_drop w.table.rows.length _).symm.trans ?_
      rw [htake, List.drop_eq_getElem?_toList_append, List.getElem?_map, hp, Option.map_some,
        hindex _ _ hp, hx, ho]
      rfl
    obtain ⟨hv, hr⟩ := Sweep.verdict_of_failure first houtcomes
    rw [hv, hacc.progress_eq]
    exact ⟨rfl, hr⟩

end Window

/-! ### All bounds and all orders -/

/-- The bound on the runs in flight does not matter to a loop. -/
theorem runInOrder_parallel (c : Config) (n : UInt64) (dir : String) (points : List Point)
    (progress : Progress) (table : Table) :
    runInOrder { c with parallel := n } dir points progress table =
      runInOrder c dir points progress table := by
  induction points generalizing progress table with
  | nil => rfl
  | cons p rest ih =>
    refine congrArg (Script.bind (runPoint c dir p).run) (funext fun o => ?_)
    cases o with
    | error f => rfl
    | ok row => exact congrArg _ (ih ..)

/-- The rows are those of the points, in order. -/
theorem map_point_of_outcomes {c : Config} {fate : Fate} {points : List Point} {rows : List Row}
    (h : points.map (fun p => outcomeOf c p (fate p.index)) = rows.map .ok) :
    rows.map Row.point = points := by
  induction points generalizing rows with
  | nil => simpa using h.symm
  | cons p points ih =>
    obtain ⟨row, rows, rfl, hrow, hrows⟩ := List.map_eq_cons_iff.1 h.symm
    rw [List.map_cons, ih hrows.symm, point_eq_of_outcomeOf hrow.symm]

namespace Sweep

variable {s : Sweep}

/-- A sweep with another bound on the runs in flight. -/
def withParallel (s : Sweep) (n : UInt64) : Sweep :=
  { s with config := { s.config with parallel := n } }

/-- Whatever the order of the moves, a sweep ends with its verdict, and tells the user of its rows
in order. -/
theorem verdict_of_comes (hbench : s.config.benchmark ≠ []) {progress : Progress} {fate : Fate}
    {moves last : List Act} {w : Window} {r : Progress × Except Failure Table}
    (h : s.Comes progress moves w) (hstop : w.Stops last r)
    (ha : (Ledger.ofActs (moves ++ last)).Agrees fate) :
    r = verdict progress
        (s.config.grid.points.map fun p => outcomeOf s.config p (fate p.index)) ∧
      (moves ++ last).filterMap Act.info? =
        (rowsOf (s.config.grid.points.map fun p => outcomeOf s.config p (fate p.index))).map
          Row.event := by
  rw [Ledger.ofActs_append] at ha
  obtain ⟨hr, hrows⟩ := (h.sound hbench).eq_verdict (fun i p => Grid.index_of_getElem?) ha hstop
  have hlast : last.filterMap Act.info? = [] := by
    cases hstop <;> rfl
  refine ⟨hr, ?_⟩
  rw [List.filterMap_append, hlast, List.append_nil, hrows]
  exact (Window.Steps.events_eq hbench h).symm

/-- The sweep waits only for commands in flight. -/
theorem keepsCount_runPoints (hbench : s.config.benchmark ≠ []) (progress : Progress) :
    (s.runPoints progress).KeepsCount 0 :=
  Window.keepsCount_run hbench (.start progress s.config.grid.points)

/-- Every fate of the runs is met by some run of the sweep, which gives the verdict. -/
theorem exists_ends_runPoints (hbench : s.config.benchmark ≠ []) (hpar : s.config.parallel ≠ 0)
    (progress : Progress) (fate : Fate) :
    ∃ acts, (s.runPoints progress).Ends acts (verdict progress
      (s.config.grid.points.map fun p => outcomeOf s.config p (fate p.index))) := by
  have hcount : (s.runPoints progress).KeepsCount (Ledger.inFlight (Ledger.ofActs [])) :=
    keepsCount_runPoints hbench progress
  obtain ⟨acts, r, hends, ha⟩ := hcount.exists_ends (Ledger.agrees_nil fate)
  obtain ⟨moves, last, w, rfl, hcomes, hstop⟩ := comes_of_ends_runPoints hpar hends
  exact ⟨_, (verdict_of_comes hbench hcomes hstop ha).1 ▸ hends⟩

/-- A sweep whose build steps and paths are in order can end with the table of its runs. -/
theorem exists_ends_run (hbench : s.config.benchmark ≠ []) (hpar : s.config.parallel ≠ 0)
    {acts : List Act} (hprepare : s.prepare.run.Ends acts (.ok ())) (fate : Fate)
    {progress progress' : Progress} {table : Table}
    (hverdict : verdict progress (s.config.grid.points.map fun p =>
      outcomeOf s.config p (fate p.index)) = (progress', .ok table)) :
    ∃ acts, (s.run progress).Ends acts (progress', .ok table) := by
  obtain ⟨runs, hpoints⟩ := exists_ends_runPoints hbench hpar progress fate
  rw [hverdict] at hpoints
  have hsave : (s.save table).run.Ends _ (.ok table) := .save (.ok ()) (.note (.refl _))
  exact ⟨_, Script.ends_bind_iff.2 ⟨.ok (), acts, _, rfl, hprepare,
    Script.ends_bind_iff.2 ⟨_, runs, _, rfl, hpoints,
      Script.ends_bind_iff.2 ⟨.ok table, _, _, rfl, hsave, .refl _⟩⟩⟩⟩

/-- **All bounds and all orders give the same.** Let the fates of the runs be fixed. Then a sweep
that runs one point at a time is a loop over the points; and under every bound, a sweep that has
kept to the fates so far comes to an end along them, and every sweep that ends along them ends with
the verdict, and tells the user of its rows in order, however its moves were ordered. If all points
give rows, the verdict is their table, with the progress at its length; otherwise it is the first
failure in the order of the points, with the progress of the rows before it. -/
theorem runPoints_eq_inOrder (hbench : s.config.benchmark ≠ []) (progress : Progress)
    (fate : Fate) :
    let points := s.config.grid.points
    let outcomes := points.map fun p => outcomeOf s.config p (fate p.index)
    let size : Event := ⟨.info, .sweep, gridText s.config.grid⟩
    (s.withParallel 1).runPoints progress =
      .note size (runInOrder s.config s.dir points progress {}) ∧
    (∀ n, n ≠ 0 →
      (∀ acts t, ((s.withParallel n).runPoints progress).Reaches acts t →
        (Ledger.ofActs acts).Agrees fate →
        ∃ more r, t.Ends more r ∧ (Ledger.ofActs (acts ++ more)).Agrees fate) ∧
      (∀ acts r, ((s.withParallel n).runPoints progress).Ends acts r →
        (Ledger.ofActs acts).Agrees fate →
        r = verdict progress outcomes ∧
          acts.filterMap Act.info? = size :: (rowsOf outcomes).map Row.event) ∧
      (∀ moves last w r, (s.withParallel n).Comes progress moves w → w.Stops last r →
        (Ledger.ofActs (moves ++ last)).Agrees fate →
        r = verdict progress outcomes ∧
          (moves ++ last).filterMap Act.info? = (rowsOf outcomes).map Row.event)) ∧
    (∀ rows, outcomes = rows.map .ok →
      verdict progress outcomes = (progress.finish, .ok ⟨rows⟩) ∧
        progress.finish.position = progress.length ∧ rowsOf outcomes = rows ∧
        rows.map Row.point = points) ∧
    ∀ rows f later, outcomes = rows.map .ok ++ .error f :: later →
      verdict progress outcomes = (Progress.advance^[rows.length] progress, .error f) ∧
        rowsOf outcomes = rows ∧
        (progress.position = 0 → rows.length ≤ Progress.limit →
          (Progress.advance^[rows.length] progress).position = rows.length) := by
  intro points outcomes size
  refine ⟨?_, fun n hn => ⟨?_, ?_, ?_⟩, ?_, ?_⟩
  · refine congrArg (Script.note size) ?_
    exact (Window.run_one ..).trans (runInOrder_parallel ..)
  · intro acts t hreach ha
    have hcount := hreach.keepsCount (l := [])
      (keepsCount_runPoints (s := s.withParallel n) hbench progress)
    exact Script.KeepsCount.exists_ends hcount ha
  · intro acts r hends ha
    obtain ⟨moves, last, w, rfl, hcomes, hstop⟩ := comes_of_ends_runPoints hn hends
    obtain ⟨hr, htold⟩ := verdict_of_comes (s := s.withParallel n) hbench hcomes hstop ha
    exact ⟨hr, congrArg (size :: ·) htold⟩
  · intro moves last w r hcomes hstop ha
    exact verdict_of_comes (s := s.withParallel n) hbench hcomes hstop ha
  · intro rows h
    obtain ⟨hv, hr⟩ := verdict_of_rows progress h
    exact ⟨hv, rfl, hr, map_point_of_outcomes h⟩
  · intro rows f later h
    obtain ⟨hv, hr⟩ := verdict_of_failure progress h
    exact ⟨hv, hr, fun hzero hlimit => Progress.position_iterate_advance hzero hlimit⟩

/-- The first point overruns its time limit; the others could not even be started, which is known
much earlier. The sweep fails at the first point. -/
theorem runPoints_eq_inOrder_overrun :
    let s : Sweep := ⟨{ parallel := 4, timeoutSeconds := some 1 }, "/work"⟩
    let fate : Fate := fun n => if n = 0 then .ok .overran else .error .noEntry
    ∃ acts p, s.config.grid.points.head? = some p ∧
      (s.runPoints .hidden).Ends acts
        (.hidden, .error (.ofFault (.timedOut p.text (.ofSeconds 1)))) ∧
      (Ledger.ofActs acts).Agrees fate := by
  intro s fate
  obtain ⟨-, hn, -⟩ := runPoints_eq_inOrder (s := s) (by decide) .hidden fate
  obtain ⟨hends, hverdict, -⟩ := hn 4 (by decide)
  obtain ⟨acts, r, h, ha⟩ := hends [] _ (.refl _) (Ledger.agrees_nil fate)
  obtain ⟨rfl, -⟩ := hverdict acts r h ha
  exact ⟨acts, _, rfl, h, ha⟩

end Sweep

end BenchSweep
