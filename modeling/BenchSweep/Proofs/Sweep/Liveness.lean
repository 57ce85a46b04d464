import BenchSweep.Proofs.Config.Check
import BenchSweep.Proofs.Sweep.Order
import BenchSweep.Proofs.Sweep.Phases
import BenchSweep.Proofs.Table.Failures

/-!
# What the check of a configuration is for

The check is what the phases of a sweep need. A sweep of a checked configuration has a program in
all of its command lines and room for one run at least, so its window is never stuck: it has
stopped, or a point can be started, a run can end, or a row can be read. With no room at all, a
window with points would be stuck at once.

## Why the check is stated by what follows

A check that refuses everything would be sound, and one that accepts everything would be complete.
So both sides are said: which configurations are accepted, with the first fault of the others, and
what can be relied on after that. The conditions are then seen to be the right ones, because each of
them is used. A program in each line is needed to launch it, and room for one run is needed to go
on.

## Scope

A window that can move need not come to an end by itself, since a command without a time limit may
run for ever; that it is never stuck is what the sweep can see to. Failures that remain possible are
those of commands, of paths and of saves, with their own causes.

## Main results

* `Window.stops_or_moves`: a window with room is not stuck.
* `Sweep.RunActs.not_isUnchecked`: how a sweep does not fail.
* `Sweep.ofConfig_checks`: what the check accepts, and what follows from it.
-/

namespace BenchSweep

open Number (Binary64)

/-! ### Failures -/

/-- Two causes that the check rules out: a command line without a program, and a record that is not
as long as the header. -/
def Cause.IsUnchecked : Cause → Prop
  | .noProgram | .unequalRecord _ _ => True
  | _ => False

theorem Failure.IsOutside.not_isUnchecked {f : Failure} (h : f.IsOutside) :
    ¬ f.cause.IsUnchecked := by
  rcases h with ⟨e, he⟩ | ⟨e, he⟩ <;> rw [he] <;> exact id

theorem not_isUnchecked_of_settle {limit : Option Duration} {target : String} {b : Behaviour}
    {f : Failure} (h : b.settle limit target = .error f) : ¬ f.cause.IsUnchecked := by
  cases b with
  | ended ending => cases h
  | overran => cases limit <;> cases h <;> exact id

theorem not_isUnchecked_of_outcomeOf {c : Config} {p : Point} {fate : Except SystemError Behaviour}
    {f : Failure} (h : outcomeOf c p fate = .error f) : ¬ f.cause.IsUnchecked := by
  cases fate with
  | error e =>
    cases h
    exact id
  | ok b =>
    rcases eq_error_or_of_bind h with hsettle | ⟨ending, -, hrest⟩
    · exact not_isUnchecked_of_settle hsettle
    · split at hrest
      next => split at hrest <;> cases hrest; exact id
      next =>
        cases hrest
        exact id

theorem BuildActs.not_isUnchecked {dir : String} {limit : Option Duration}
    {steps : List (List String)} {acts : List Act} {f : Failure}
    (h : BuildActs dir limit steps acts (.error f)) : ¬ f.cause.IsUnchecked := by
  generalize hr : Except.error f = r at h
  induction h with
  | done => cases hr
  | refused e =>
    cases hr
    exact id
  | overran =>
    cases hr
    cases limit <;> exact id
  | failed =>
    cases hr
    exact id
  | passed _ _ ih => exact ih hr

theorem LookActs.not_isUnchecked {c : Config} {dir : String} {acts : List Act} {f : Failure}
    (h : LookActs c dir acts (.error f)) : ¬ f.cause.IsUnchecked := by
  cases h <;> exact id

/-- On a tree, a save that fails does so for a reason outside. -/
theorem Disk.Changes.isOutside_of_saved {here : Location} {acts : List Act} {d d' : Disk}
    (h : Disk.Changes here acts d d') {table : Table} {path : String} {f : Failure}
    (hmem : .saved table path (.error f) ∈ acts) : f.IsOutside := by
  induction h with
  | nil => cases hmem
  | cons hact _ ih =>
    rcases List.mem_cons.1 hmem with rfl | hlater
    · cases hact with
      | command h => cases h
      | unsaved m hsave => exact Table.isOutside_of_save hsave
    · exact ih hlater

/-! ### Windows -/

namespace Window

variable {c : Config} {dir : String} {limit : Nat}

/-- The benchmark at the first point that waits can be started. -/
theorem exists_step_of_waiting (dir : String) (limit : Nat) (hc : c.benchmark ≠ []) {w : Window}
    {p : Point} {later : List Slot} (hslots : w.slots = .waiting p :: later) :
    ∃ acts w', Step c dir limit w acts w' ∧ acts ≠ [] := by
  refine ⟨_, _, @Step.start c dir limit w [] later p _ _ hslots (by simp)
    ((startAt_ends_iff hc).2 ⟨none, rfl, rfl⟩), ?_⟩
  simp

/-- **A window with room is not stuck.** It has stopped, or points can be taken so that one can be
started, or a run can end, or a row can be read. -/
theorem stops_or_moves (hc : c.benchmark ≠ []) (hlimit : 0 < limit) (w : Window) :
    (∃ last r, w.Stops last r) ∨
      ∃ w₁ acts w₂, Steps c dir limit w [] w₁ ∧ Step c dir limit w₁ acts w₂ ∧ acts ≠ [] := by
  cases hslots : w.slots with
  | nil =>
    cases hrest : w.rest with
    | nil => exact .inl ⟨_, _, .finish hslots hrest⟩
    | cons p rest =>
      have htake : Step c dir limit w [] _ :=
        .take (by simpa [hslots] using hlimit) hrest
      obtain ⟨acts, w₂, hstep, hacts⟩ := exists_step_of_waiting dir limit hc
        (w := { w with slots := w.slots ++ [.waiting p], rest }) (by rw [hslots]; rfl)
      exact .inr ⟨_, acts, w₂, .head htake (.refl _), hstep, hacts⟩
  | cons slot later =>
    cases slot with
    | waiting p =>
      obtain ⟨acts, w₂, hstep, hacts⟩ := exists_step_of_waiting dir limit hc hslots
      exact .inr ⟨w, acts, w₂, .refl w, hstep, hacts⟩
    | running p =>
      exact .inr ⟨w, _, _, .refl w, @Step.settle c dir limit w [] later p .overran hslots, by simp⟩
    | settled p outcome =>
      cases outcome with
      | error f => exact .inl ⟨_, _, .fail hslots⟩
      | ok row => exact .inr ⟨w, _, _, .refl w, .read hslots, by simp⟩

/-- The slots that run are those whose commands are in flight. -/
theorem Sound.countP_isRunning {points : List Point} {first : Progress} {l : Ledger} {w : Window}
    (h : Sound c dir limit points first l w) :
    w.slots.countP Slot.isRunning = Ledger.inFlight l := by
  obtain ⟨done, live, waiting, ha⟩ := h
  have hwaiting : (waiting.map Slot.waiting).countP Slot.isRunning = 0 := by
    simp [List.countP_eq_zero, Slot.isRunning]
  rw [ha.slots_eq, List.countP_append, hwaiting, Trial.countP_map_slot c dir, ha.ledger_eq,
    List.map_append, Ledger.inFlight_append, Trial.inFlight_map_launch dir ha.outcome?_ne_none,
    Nat.zero_add, Nat.add_zero]

/-- A failure in a window is not one that the check rules out. -/
theorem Sound.not_isUnchecked {points : List Point} {first : Progress} {l : Ledger} {w : Window}
    (h : Sound c dir limit points first l w) {p : Point} {f : Failure}
    (hmem : .settled p (.error f) ∈ w.slots) : ¬ f.cause.IsUnchecked := by
  obtain ⟨done, live, waiting, ha⟩ := h
  rw [ha.slots_eq, List.mem_append] at hmem
  rcases hmem with hlive | hwaiting
  · obtain ⟨trial, -, htrial⟩ := List.mem_map.1 hlive
    obtain ⟨-, houtcome⟩ := Trial.outcome?_of_slot_eq_settled htrial
    obtain ⟨fate, -, hfate⟩ := Option.map_eq_some_iff.1 houtcome
    exact not_isUnchecked_of_outcomeOf hfate
  · simp at hwaiting

/-- With no room, a window with points is stuck at its start. -/
theorem stuck_of_limit_eq_zero {points : List Point} (hpoints : points ≠ []) (first : Progress) :
    (∀ acts w, ¬ Step c dir 0 (start first points) acts w) ∧
      ∀ last r, ¬ Stops (start first points) last r := by
  refine ⟨fun acts w hstep => ?_, fun last r hstop => ?_⟩
  · cases hstep with
    | take hroom => exact Nat.not_lt_zero _ hroom
    | start hslots => simp [start] at hslots
    | settle b hslots => simp [start] at hslots
    | read hslots => cases hslots
  · cases hstop with
    | finish hslots hrest => exact hpoints hrest
    | fail hslots => cases hslots

end Window

/-! ### Sweeps -/

namespace Sweep

variable {s : Sweep} {progress : Progress}

/-- On a tree, no sweep fails in a way that the check rules out. -/
theorem RunActs.not_isUnchecked {acts : List Act} {r : Progress × Except Failure Table}
    (h : RunActs s progress acts r) {f : Failure} (hf : r.2 = .error f)
    (hsaved : ∀ table path g, .saved table path (.error g) ∈ acts → g.IsOutside) :
    ¬ f.cause.IsUnchecked := by
  cases h with
  | buildFailed hbuild =>
    cases hf
    exact hbuild.not_isUnchecked
  | pathMissing _ hlook =>
    cases hf
    exact hlook.not_isUnchecked
  | pointFailed _ _ hrun =>
    cases hf
    obtain ⟨i, p, launch, fate, -, -, -, ho⟩ := hrun.failure_of_error f rfl
    exact not_isUnchecked_of_outcomeOf ho
  | @saved builds looks runs progress' table answer hbuild hlook hrun =>
    cases answer with
    | ok _ => cases hf
    | error g =>
      cases hf
      exact (hsaved table (Path.join s.dir s.config.output) g (by simp)).not_isUnchecked

/-- **What the check accepts, and what follows from it.** A sweep is made of a configuration that is
valid, and otherwise the first condition that fails is reported. In a sweep that is made, every
command line that is prepared has a program, no run on any tree fails because of an empty command
line or an unequal record, and a table is written unless its receiver fails. Every window is one
that has stopped or that can move on, and what is awaited is in flight. With no room for runs, no
window with points could move. -/
theorem ofConfig_checks (c : Config) (dir : String) :
    ((∃ s, ofConfig c dir = .ok s) ↔ c.IsValid) ∧
    (∀ fault, ofConfig c dir = .error fault ↔ c.FirstFault fault) ∧
    ((∀ r : Binary64, r.isNaN = true → ¬ Grid.IsRatio r) ∧
      (∀ negative, ¬ Grid.IsRatio (.ofMagnitude negative Binary64.infinity)) ∧
      Grid.IsRatio (.ofMagnitude true 0)) ∧
    (∀ s, ofConfig c dir = .ok s →
      (∀ line ∈ c.benchmark :: c.build, ∀ args dir', ∃ event command,
        (Command.prepare line args dir').run = .note event (.done (.ok command))) ∧
      (∀ progress acts r, (s.run progress).Ends acts r →
        ∀ here d d', Disk.Changes here acts d d' → ∀ f, r.2 = .error f →
          f.cause ≠ .noProgram ∧ ∀ found expected, f.cause ≠ .unequalRecord found expected) ∧
      (∀ progress moves w, s.Comes progress moves w →
        (∀ p f, .settled p (.error f) ∈ w.slots → f.cause ≠ .noProgram) ∧
        w.slots.countP Slot.isRunning = Ledger.inFlight (Ledger.ofActs moves) ∧
        ((∃ last r, w.Stops last r) ∨ ∃ w₁ acts w₂,
          Window.Steps c s.dir c.parallel.toNat w [] w₁ ∧
            Window.Step c s.dir c.parallel.toNat w₁ acts w₂ ∧ acts ≠ [])) ∧
      ∀ progress acts others next, (s.runPoints progress).Reaches acts (.await others next) →
        Ledger.inFlight (Ledger.ofActs acts) = others + 1) ∧
    (∀ (σ : Type) (sink : Csv.Sink σ) (table : Table) (state state' : σ) (f : Failure),
      table.write sink state = .error f state' → f.IsOutside) ∧
    ∀ (points : List Point) (first : Progress), points ≠ [] →
      (∀ acts w, ¬ Window.Step c dir 0 (.start first points) acts w) ∧
        ∀ last r, ¬ Window.Stops (.start first points) last r := by
  refine ⟨?_, fun fault => ofConfig_eq_error_iff, ⟨fun r hnan h => ?_, fun negative => ?_, ?_⟩,
    fun s hs => ?_, fun σ sink table state state' f => Table.isOutside_of_write,
    fun points first hpoints => Window.stuck_of_limit_eq_zero hpoints first⟩
  · exact ⟨fun ⟨s, hs⟩ => (ofConfig_eq_ok_iff.1 hs).1,
      fun h => ⟨_, ofConfig_eq_ok_iff.2 ⟨h, rfl⟩⟩⟩
  · exact Bool.false_ne_true (h.1.2.1.symm.trans hnan)
  · rw [Grid.isRatio_iff]
    cases negative <;> decide
  · rw [Grid.isRatio_iff]
    decide
  · obtain ⟨rfl, hbench, hbuild, hpar⟩ := of_ofConfig hs
    have hlimit : 0 < c.parallel.toNat := (ofConfig_eq_ok_iff.1 hs).1.parallel
    refine ⟨fun line hline args dir' => ?_, fun progress acts r hends here d d' hd f hf => ?_,
      fun progress moves w hcomes => ⟨fun p f hmem he => ?_, ?_, ?_⟩,
      fun progress acts others next hreach => ?_⟩
    · have hne : line ≠ [] := by
        rcases List.mem_cons.1 hline with rfl | hstep
        · exact hbench
        · exact fun he => hbuild (he ▸ hstep)
      obtain ⟨event, hrun⟩ := Command.prepare_run hne args dir'
      exact ⟨event, _, hrun⟩
    · have hchecked := (runActs_of_ends hbench hbuild hpar hends).not_isUnchecked hf
        fun table path g hg => hd.isOutside_of_saved (List.mem_filter.1 hg).1
      refine ⟨fun he => ?_, fun found expected he => ?_⟩ <;> rw [he] at hchecked <;>
        exact hchecked trivial
    · have hchecked := (hcomes.sound hbench).not_isUnchecked hmem
      rw [he] at hchecked
      exact hchecked trivial
    · exact (hcomes.sound hbench).countP_isRunning
    · exact w.stops_or_moves hbench hlimit
    · exact (hreach.keepsCount (l := []) (keepsCount_runPoints hbench progress)).1

end Sweep

end BenchSweep
