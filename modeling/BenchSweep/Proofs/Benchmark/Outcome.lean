import BenchSweep.Proofs.Window.Moves

/-!
# The outcome of one benchmark run

The benchmark is run once at a point, and one of five things comes of it. Its command cannot be
started; or it overruns its time limit; or it ends without success; or it succeeds and its output
is not understood; or it gives a row. Which of them it is depends on nothing but the fate of the
command, in this order: what a run that did not succeed has printed does not matter, nor does what a
run that succeeded has written to standard error.

## Why the outcome is told by a fate

What a command does is not up to the sweep. So the command is given a fate, which is any way in
which it may be refused, end or overrun, and the result is for all of them: to every fate there is
exactly one result. `IsOutcome` lists the five in the order in which they are looked for. A sixth,
that the line of the benchmark has no program, comes before any launch.

## Scope

A command without a time limit does not overrun, and `Config.Admits` leaves such fates out; for what
the script would do then, nothing is promised. Standard error is part of a failure and is shown as
`BenchSweep.Proofs.Command.ErrorText` says.

## Main definitions

* `IsOutcome`: what comes of a run, by the fate of its command.
* `RunsTo`: a run that ends with a result, its command having met a fate.

## Main results

* `runPoint_ends_iff`: the acts of a run.
* `runPoint_isOutcome`: the results of all runs.
-/

namespace BenchSweep

open Command (Status Ending)

/-- The fates that the command of a run can meet: only a command with a time limit overruns it. -/
def Config.Admits (c : Config) (fate : Except SystemError Behaviour) : Prop :=
  fate = .ok .overran → c.timeoutSeconds ≠ none

/-- What comes of a run at a point, by the fate of its command. -/
inductive IsOutcome (c : Config) (p : Point) : Except SystemError Behaviour → Outcome → Prop
  | refused (e : SystemError) :
      IsOutcome c p (.error e) (.error ⟨[.starting p.text], .system e⟩)
  | overran {seconds : UInt64} (h : c.timeoutSeconds = some seconds) :
      IsOutcome c p (.ok .overran)
        (.error (.ofFault (.timedOut p.text (.ofSeconds seconds.toNat))))
  | failed {ending : Ending} (h : ending.status.isSuccess = false) :
      IsOutcome c p (.ok (.ended ending))
        (.error (.ofFault (.benchmarkFailed p ending.status ending.errorText)))
  | malformed {ending : Ending} {e : MetricsError} (h : ending.status.isSuccess = true)
      (hread : Metrics.read ending.stdout = .error e) :
      IsOutcome c p (.ok (.ended ending)) (.error (.ofFault (.malformedOutput p e)))
  | row {ending : Ending} {metrics : Metrics} (h : ending.status.isSuccess = true)
      (hread : Metrics.read ending.stdout = .ok metrics) :
      IsOutcome c p (.ok (.ended ending)) (.ok ⟨p, metrics⟩)

/-- A run at a point comes to an end with a result. It has launched one command, with the time limit
of the configuration, and the command has met its fate. -/
def RunsTo (c : Config) (dir : String) (p : Point) (fate : Except SystemError Behaviour)
    (r : Outcome) : Prop :=
  ∃ acts, (runPoint c dir p).run.Ends acts r ∧
    Ledger.ofActs acts = [⟨c.commandAt dir p, c.timeout, .ofFate fate⟩]

/-! ### Outcomes -/

variable {c : Config} {dir : String} {p : Point}

theorem settleAt_ended (ending : Ending) :
    settleAt c p (.ended ending) =
      if ending.status.isSuccess then
        match Metrics.read ending.stdout with
        | .ok metrics => .ok ⟨p, metrics⟩
        | .error e => .error (.ofFault (.malformedOutput p e))
      else .error (.ofFault (.benchmarkFailed p ending.status ending.errorText)) := rfl

/-- Every fate that a command can meet has one outcome. -/
theorem isOutcome_iff {fate : Except SystemError Behaviour} (hfate : c.Admits fate) {r : Outcome} :
    IsOutcome c p fate r ↔ r = outcomeOf c p fate := by
  constructor
  · intro h
    cases h with
    | refused e => rfl
    | overran h =>
      rw [outcomeOf, settleAt, Config.timeout, h]
      rfl
    | failed h => rw [outcomeOf, settleAt_ended, h]; rfl
    | malformed h hread => rw [outcomeOf, settleAt_ended, h, hread]; rfl
    | row h hread => rw [outcomeOf, settleAt_ended, h, hread]; rfl
  · rintro rfl
    rcases fate with e | ending | _
    · exact .refused e
    · rw [outcomeOf, settleAt_ended]
      split
      next h =>
        split
        next metrics hread => exact .row h hread
        next e hread => exact .malformed h hread
      next h => exact .failed (Bool.eq_false_iff.2 h)
    · obtain ⟨seconds, hseconds⟩ := Option.ne_none_iff_exists'.1 (hfate rfl)
      rw [outcomeOf, settleAt, Config.timeout, hseconds]
      exact .overran hseconds

/-- A run gives a row if its command succeeds and prints metrics, and then that row. -/
theorem outcomeOf_eq_ok_iff {fate : Except SystemError Behaviour} {row : Row} :
    outcomeOf c p fate = .ok row ↔ ∃ ending metrics, fate = .ok (.ended ending) ∧
      ending.status.isSuccess = true ∧ Metrics.read ending.stdout = .ok metrics ∧
      row = ⟨p, metrics⟩ := by
  constructor
  · intro h
    rcases fate with e | ending | _
    · cases h
    · rw [outcomeOf, settleAt_ended] at h
      split at h
      next hsuccess =>
        split at h
        next metrics hread =>
          cases h
          exact ⟨ending, metrics, rfl, hsuccess, hread, rfl⟩
        next => cases h
      next => cases h
    · simp only [outcomeOf, settleAt, Behaviour.settle] at h
      split at h <;> cases h
  · rintro ⟨ending, metrics, rfl, hsuccess, hread, rfl⟩
    rw [outcomeOf, settleAt_ended, if_pos hsuccess, hread]

/-- A process that a signal has ended has not succeeded. -/
theorem isSuccess_of_signal? {status : Status} {signal : Nat} (h : status.signal? = some signal) :
    status.isSuccess = false := by
  rw [Status.isSuccess, decide_eq_false_iff_not]
  intro hbits
  rw [Status.signal?, Status.low, hbits] at h
  cases h

/-! ### Runs -/

/-- The acts of a run, by the fate of its command. -/
def actsAt (c : Config) (dir : String) (p : Point) : Except SystemError Behaviour → List Act
  | .error e => [.told (c.startEvent dir p), .launched (c.commandAt dir p) c.timeout (some e)]
  | .ok b => [.told (c.startEvent dir p), .launched (c.commandAt dir p) c.timeout none] ++
      .awaited 0 b :: (eventsAt p b).map .told

/-- The acts of a run after its command was started. -/
theorem settle_ends_iff {acts : List Act} {r : Outcome} :
    (awaitOne >>= fun b => ExceptT.mk (tellAll (eventsAt p b) (.done (settleAt c p b)))).run.Ends
        acts r ↔
      ∃ b, acts = .awaited 0 b :: (eventsAt p b).map .told ∧ r = settleAt c p b := by
  constructor
  · intro h
    obtain ⟨i, b, rest, rfl, htell⟩ := Script.ends_await_iff.1 h
    obtain ⟨rest, rfl, hdone⟩ := Script.ends_tellAll_iff.1 htell
    obtain ⟨rfl, rfl⟩ := Script.ends_done_iff.1 hdone
    exact ⟨b, by rw [List.append_nil, Fin.fin_one_eq_zero i]; rfl, rfl⟩
  · rintro ⟨b, rfl, rfl⟩
    exact .await 0 b (Script.ends_tellAll_iff.2 ⟨[], (List.append_nil _).symm, .refl _⟩)

/-- **The acts of a run**, with its result. -/
theorem runPoint_ends_iff (hc : c.benchmark ≠ []) {acts : List Act} {r : Outcome} :
    (runPoint c dir p).run.Ends acts r ↔
      ∃ fate, acts = actsAt c dir p fate ∧ r = outcomeOf c p fate := by
  rw [runPoint, Attempt.ends_bind_iff]
  constructor
  · rintro (⟨f, hstart, rfl⟩ | ⟨_, first, rest, rfl, hstart, hrest⟩)
    · obtain ⟨_ | e, rfl, hf⟩ := (startAt_ends_iff hc).1 hstart
      · cases hf
      · exact ⟨.error e, rfl, congrArg Except.error (Except.error.inj hf)⟩
    · obtain ⟨_ | e, rfl, hstarted⟩ := (startAt_ends_iff hc).1 hstart
      · obtain ⟨b, rfl, rfl⟩ := settle_ends_iff.1 hrest
        exact ⟨.ok b, rfl, rfl⟩
      · cases hstarted
  · rintro ⟨e | b, rfl, rfl⟩
    · exact .inl ⟨_, (startAt_ends_iff hc).2 ⟨some e, rfl, rfl⟩, rfl⟩
    · exact .inr ⟨(), _, _, rfl, (startAt_ends_iff hc).2 ⟨none, rfl, rfl⟩,
        settle_ends_iff.2 ⟨b, rfl, rfl⟩⟩

/-- The only command of a run stands where its fate has it. -/
theorem ofActs_actsAt (fate : Except SystemError Behaviour) :
    Ledger.ofActs (actsAt c dir p fate) = [⟨c.commandAt dir p, c.timeout, .ofFate fate⟩] := by
  cases fate with
  | error e => rfl
  | ok b =>
    rw [actsAt, Ledger.ofActs_append, List.foldl_cons, Ledger.foldl_record_told]
    rfl

/-- A run ends with the outcome of the fate of its command. -/
theorem runsTo_iff (hc : c.benchmark ≠ []) {fate : Except SystemError Behaviour} {r : Outcome} :
    RunsTo c dir p fate r ↔ r = outcomeOf c p fate := by
  constructor
  · rintro ⟨acts, hends, hledger⟩
    obtain ⟨fate', rfl, rfl⟩ := (runPoint_ends_iff hc).1 hends
    rw [ofActs_actsAt] at hledger
    have hstand : Stand.ofFate fate' = .ofFate fate :=
      congrArg Launch.stand (List.singleton_inj.1 hledger)
    have hfate : fate' = fate := Stand.agrees_ofFate_iff.1 (hstand ▸ Stand.agrees_ofFate_iff.2 rfl)
    rw [hfate]
  · rintro rfl
    exact ⟨_, (runPoint_ends_iff hc).2 ⟨fate, rfl, rfl⟩, ofActs_actsAt fate⟩

/-- A benchmark without a program is not run. -/
theorem eq_noProgram_of_ends (hc : c.benchmark = []) {acts : List Act} {r : Outcome}
    (h : (runPoint c dir p).run.Ends acts r) : acts = [] ∧ r = .error (.of .noProgram) := by
  have hrun : (runPoint c dir p).run = .done (.error (.of .noProgram)) := by
    rw [runPoint, startAt, hc]
    rfl
  rw [hrun] at h
  obtain ⟨hacts, hr⟩ := Script.ends_done_iff.1 h
  exact ⟨hacts, hr.symm⟩

/-- **The outcome of one run.** A benchmark without a program launches nothing and fails. Any other
launches its one command, and whatever the fate of the command is, the run ends with one result,
which is its outcome. It gives a row exactly if the command was started, ended in time and with
success, and printed metrics, and then the row of that point. What a command that succeeds writes to
standard error changes nothing, and no command that a signal ends has succeeded. -/
theorem runPoint_isOutcome (c : Config) (dir : String) (p : Point) :
    (c.benchmark = [] → ∀ acts r, (runPoint c dir p).run.Ends acts r →
      acts = [] ∧ r = .error (.of .noProgram)) ∧
    (c.benchmark ≠ [] →
      (∀ acts r, (runPoint c dir p).run.Ends acts r → ∃ fate, RunsTo c dir p fate r ∧
        Ledger.ofActs acts = [⟨c.commandAt dir p, c.timeout, .ofFate fate⟩]) ∧
      (∀ fate, ∃! r, RunsTo c dir p fate r) ∧
      (∀ fate r, c.Admits fate → (RunsTo c dir p fate r ↔ IsOutcome c p fate r)) ∧
      (∀ fate row, RunsTo c dir p fate (.ok row) ↔ ∃ ending metrics,
        fate = .ok (.ended ending) ∧ ending.status.isSuccess = true ∧
          Metrics.read ending.stdout = .ok metrics ∧ row = ⟨p, metrics⟩) ∧
      ∀ (status : Status) (stdout stderr stderr' : Text.Bytes) (r r' : Outcome),
        status.isSuccess = true → RunsTo c dir p (.ok (.ended ⟨status, stdout, stderr⟩)) r →
          RunsTo c dir p (.ok (.ended ⟨status, stdout, stderr'⟩)) r' → r = r') ∧
    ∀ (status : Status) (signal : Nat), status.signal? = some signal →
      status.isSuccess = false := by
  refine ⟨fun hc acts r h => eq_noProgram_of_ends hc h, fun hc =>
    ⟨fun acts r h => ?_, fun fate => ?_, fun fate r hfate => ?_, fun fate row => ?_, ?_⟩,
    fun status signal => isSuccess_of_signal?⟩
  · obtain ⟨fate, rfl, rfl⟩ := (runPoint_ends_iff hc).1 h
    exact ⟨fate, (runsTo_iff hc).2 rfl, ofActs_actsAt fate⟩
  · exact ⟨_, (runsTo_iff hc).2 rfl, fun r h => (runsTo_iff hc).1 h⟩
  · rw [runsTo_iff hc, isOutcome_iff hfate]
  · rw [runsTo_iff hc, eq_comm, outcomeOf_eq_ok_iff]
  · intro status stdout stderr stderr' r r' hsuccess h h'
    rw [(runsTo_iff hc).1 h, (runsTo_iff hc).1 h', outcomeOf, outcomeOf, settleAt_ended,
      settleAt_ended, if_pos hsuccess, if_pos hsuccess]

end BenchSweep
