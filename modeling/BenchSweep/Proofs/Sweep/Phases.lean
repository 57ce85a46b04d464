import BenchSweep.Proofs.Benchmark.Outcome
import BenchSweep.Proofs.Script.Trees
import BenchSweep.Proofs.Sweep.Order

/-!
# The phases of a sweep

A sweep is all or nothing. Its external acts are those of the build steps, then the look at the
paths, then the runs at the points, then one save, and each phase is there only if the one before it
succeeded. `Sweep.RunActs` is the grammar of these acts, with the result that belongs to them.

## Scope

The acts of all phases are told by the configuration: the commands of the build steps and of the
benchmark, the three paths that are looked for and the path of the results, each below the working
directory. What a command does to the tree of files is left open, so that nothing is promised of a
tree while a command runs; what a save does to it is the subject of `BenchSweep.Proofs.Save.Atomic`.

## Why the phases are written out

There are three paths and eight ways to answer for them, of which four are told apart, because the
first that is missing ends the look. `LookActs` lists these four, so that the roles of the paths and
their order can be read off it. `PathActs` is the same for any list of paths; it is what the
recursion of the look gives, and the list of a configuration is put into it only after that.

Likewise a build step has passed if its command has exited with the status zero, and a point has a
row if its command has done so and has printed metrics. `BuildActs` and `PointActs` say this of the
bits of the status and of the output, and not by a test that a sweep makes of them.

## Main definitions

* `BuildActs`, `LookActs`, `PointActs`: the acts of a phase, with its result.
* `Sweep.RunActs`: the acts of a whole sweep, with its result.

## Main results

* `Sweep.runActs_of_ends`: the acts of every sweep that ends.
* `Sweep.run_phases`: what this means for the results and for the tree of files.
-/

namespace BenchSweep

/-! ### Build steps -/

/-- The name of a build step in failures. -/
def stepName (step : List String) : String :=
  "build step `" ++ joinWords step ++ "`"

/-- The command of a build step. -/
def stepCommand (dir : String) (step : List String) : Command :=
  ⟨step.headD "", step.tail, dir⟩

/-- What the behaviour of a build step means for the build. -/
def stepResult (limit : Option Duration) (step : List String) : Behaviour → Except Failure Unit
  | .overran => .error (limit.elim (.of .neverEnds) fun d => .ofFault (.timedOut (stepName step) d))
  | .ended ending =>
    if ending.status.bits = 0 then .ok ()
    else .error (.ofFault (.buildFailed (joinWords step) ending.status ending.errorText))

/-- The external acts of build steps. Each is started only after the one before it has exited with
the status zero, and the first that does not ends the build. -/
inductive BuildActs (dir : String) (limit : Option Duration) :
    List (List String) → List Act → Except Failure Unit → Prop
  | done : BuildActs dir limit [] [] (.ok ())
  | refused {step : List String} {later : List (List String)} (e : SystemError) :
      BuildActs dir limit (step :: later) [.launched (stepCommand dir step) limit (some e)]
        (.error ⟨[.starting (stepName step)], .system e⟩)
  | overran {step : List String} {later : List (List String)} :
      BuildActs dir limit (step :: later)
        [.launched (stepCommand dir step) limit none, .awaited 0 .overran]
        (.error (limit.elim (.of .neverEnds) fun d => .ofFault (.timedOut (stepName step) d)))
  | failed {step : List String} {later : List (List String)} {ending : Command.Ending}
      (h : ending.status.bits ≠ 0) :
      BuildActs dir limit (step :: later)
        [.launched (stepCommand dir step) limit none, .awaited 0 (.ended ending)]
        (.error (.ofFault (.buildFailed (joinWords step) ending.status ending.errorText)))
  | passed {step : List String} {later : List (List String)} {ending : Command.Ending}
      {acts : List Act} {r : Except Failure Unit} (h : ending.status.bits = 0)
      (hlater : BuildActs dir limit later acts r) :
      BuildActs dir limit (step :: later)
        (.launched (stepCommand dir step) limit none :: .awaited 0 (.ended ending) :: acts) r

/-- A command line that has a program is told of and becomes a command. -/
theorem Command.prepare_run {line : List String} (hline : line ≠ []) (args : List String)
    (dir : String) :
    ∃ event, (prepare line args dir).run =
      .note event (.done (.ok ⟨line.headD "", line.tail ++ args, dir⟩)) := by
  obtain ⟨program, leading, rfl⟩ := List.exists_cons_of_ne_nil hline
  exact ⟨_, rfl⟩

/-- The acts of a command that is run by itself. -/
theorem Command.ends_run_iff {command : Command} {limit : Option Duration} {target : String}
    {acts : List Act} {r : Except Failure Ending} :
    (command.run limit target).run.Ends acts r ↔
      (∃ e, acts = [.launched command limit (some e)] ∧
        r = .error ⟨[.starting target], .system e⟩) ∨
      ∃ b, acts = [.launched command limit none, .awaited 0 b] ∧ r = b.settle limit target := by
  have hsettle (b : Behaviour) : (Attempt.ofExcept (b.settle limit target)).run =
      .done (b.settle limit target) := by
    cases b.settle limit target <;> rfl
  have hrun : (command.run limit target).run = .launch command limit fun refusal =>
      refusal.elim (.await 0 fun _ b => .done (b.settle limit target)) fun e =>
        .done (.error ⟨[.starting target], .system e⟩) := by
    rw [Command.run, Attempt.run_bind]
    refine congrArg (Script.launch command limit) (funext fun refusal => ?_)
    cases refusal with
    | some e => rfl
    | none => exact congrArg (Script.await 0) (funext fun _ => funext fun b => hsettle b)
  rw [hrun, Script.ends_launch_iff]
  constructor
  · rintro ⟨_ | e, rest, rfl, h⟩
    · obtain ⟨i, b, rest, rfl, hdone⟩ := Script.ends_await_iff.1 h
      obtain ⟨rfl, rfl⟩ := Script.ends_done_iff.1 hdone
      obtain ⟨i, hi⟩ := i
      obtain rfl : i = 0 := Nat.lt_one_iff.1 hi
      exact .inr ⟨b, rfl, rfl⟩
    · obtain ⟨rfl, rfl⟩ := Script.ends_done_iff.1 h
      exact .inl ⟨e, rfl, rfl⟩
  · rintro (⟨e, rfl, rfl⟩ | ⟨b, rfl, rfl⟩)
    · exact ⟨some e, [], rfl, .refl _⟩
    · exact ⟨none, _, rfl, .await 0 b (.refl _)⟩

/-- Only a command that has ended has an ending. -/
theorem Behaviour.eq_ended_of_settle {b : Behaviour} {limit : Option Duration} {target : String}
    {ending : Command.Ending} (h : b.settle limit target = .ok ending) : b = .ended ending := by
  cases b with
  | overran => cases limit <;> cases h
  | ended ending' => exact congrArg Behaviour.ended (Except.ok.inj h)

/-- A build step whose command has no ending fails with it. -/
theorem stepResult_of_settle {b : Behaviour} {limit : Option Duration} {step : List String}
    {f : Failure} (h : b.settle limit (stepName step) = .error f) :
    stepResult limit step b = .error f := by
  cases b with
  | overran => cases limit <;> cases h <;> rfl
  | ended ending => cases h

/-- The acts of one build step. -/
theorem ends_buildStep {step : List String} (hstep : step ≠ []) {dir : String}
    {limit : Option Duration} {acts : List Act} {r : Except Failure Unit}
    (h : (buildStep step dir limit).run.Ends acts r) :
    (∃ e, acts.filter Act.isExternal = [.launched (stepCommand dir step) limit (some e)] ∧
      r = .error ⟨[.starting (stepName step)], .system e⟩) ∨
    ∃ b, acts.filter Act.isExternal =
        [.launched (stepCommand dir step) limit none, .awaited 0 b] ∧
      r = stepResult limit step b := by
  obtain ⟨event, hprepare⟩ := Command.prepare_run hstep [] dir
  rw [buildStep, Attempt.run_bind, Attempt.run_tell] at h
  obtain ⟨acts, rfl, hnext⟩ := Script.ends_note_iff.1 h
  change (Command.prepare step [] dir >>= _ : Attempt Unit).run.Ends acts r at hnext
  rw [Attempt.run_bind, hprepare, List.append_nil] at hnext
  obtain ⟨acts, rfl, hrun⟩ := Script.ends_note_iff.1 hnext
  change ((stepCommand dir step).run limit (stepName step) >>= _ : Attempt Unit).run.Ends acts r
    at hrun
  rcases Attempt.ends_bind_iff.1 hrun with ⟨f, hfailed, rfl⟩ | ⟨ending, acts₁, acts₂, rfl, h₁, h₂⟩
  · rcases Command.ends_run_iff.1 hfailed with ⟨e, rfl, he⟩ | ⟨b, rfl, hb⟩
    · cases he
      exact .inl ⟨e, rfl, rfl⟩
    · exact .inr ⟨b, rfl, (stepResult_of_settle hb.symm).symm⟩
  · rcases Command.ends_run_iff.1 h₁ with ⟨e, rfl, he⟩ | ⟨b, rfl, hb⟩
    · cases he
    · obtain rfl := Behaviour.eq_ended_of_settle hb.symm
      refine .inr ⟨.ended ending, ?_⟩
      split at h₂
      next hok =>
        obtain ⟨rest, rfl, hdone⟩ := Script.ends_note_iff.1 h₂
        obtain ⟨rfl, rfl⟩ := Script.ends_done_iff.1 hdone
        exact ⟨rfl, (if_pos (of_decide_eq_true hok)).symm⟩
      next hbad =>
        obtain ⟨rfl, rfl⟩ := Script.ends_done_iff.1 h₂
        exact ⟨rfl, (if_neg fun hzero => hbad (decide_eq_true hzero)).symm⟩

/-- A build step that has a result without failure has exited with the status zero. -/
theorem bits_of_stepResult {limit : Option Duration} {step : List String} {b : Behaviour}
    (h : stepResult limit step b = .ok ()) :
    ∃ ending, b = .ended ending ∧ ending.status.bits = 0 := by
  cases b with
  | overran => cases h
  | ended ending =>
    refine ⟨ending, rfl, ?_⟩
    by_contra hbits
    rw [stepResult, if_neg hbits] at h
    cases h

/-- The acts of a build step that was started and fails are those of the grammar. -/
theorem buildActs_of_stepResult {dir : String} {limit : Option Duration} {step : List String}
    {b : Behaviour} {f : Failure} (h : stepResult limit step b = .error f)
    (later : List (List String)) :
    BuildActs dir limit (step :: later)
      [.launched (stepCommand dir step) limit none, .awaited 0 b] (.error f) := by
  cases b with
  | overran =>
    obtain rfl := Except.error.inj h
    exact .overran
  | ended ending =>
    rw [stepResult] at h
    split at h
    next => cases h
    next hbits =>
      cases h
      exact .failed hbits

/-- The acts of the build steps are those of the grammar. -/
theorem buildActs_of_ends_build {steps : List (List String)} (hsteps : [] ∉ steps) {dir : String}
    {limit : Option Duration} {acts : List Act} {r : Except Failure Unit}
    (h : (build steps dir limit).run.Ends acts r) :
    BuildActs dir limit steps (acts.filter Act.isExternal) r := by
  induction steps generalizing acts with
  | nil =>
    obtain ⟨rfl, rfl⟩ := Script.ends_done_iff.1 h
    exact .done
  | cons step later ih =>
    have hstep : step ≠ [] := fun he => hsteps (he ▸ List.mem_cons_self)
    rw [build] at h
    rcases Attempt.ends_bind_iff.1 h with ⟨f, hfailed, rfl⟩ | ⟨_, acts₁, acts₂, rfl, h₁, h₂⟩
    · rcases ends_buildStep hstep hfailed with ⟨e, he, hr⟩ | ⟨b, he, hr⟩
      · rw [he, hr]
        exact .refused e
      · rw [he]
        exact buildActs_of_stepResult hr.symm later
    · rcases ends_buildStep hstep h₁ with ⟨e, he, hr⟩ | ⟨b, he, hr⟩
      · cases hr
      · obtain ⟨ending, rfl, hbits⟩ := bits_of_stepResult hr.symm
        rw [List.filter_append, he]
        exact .passed hbits (ih (fun hm => hsteps (List.mem_cons_of_mem _ hm)) h₂)

/-! ### Paths -/

/-- The external acts of the look at some paths, up to the first that is missing. -/
inductive PathActs (dir : String) :
    List (PathRole × String) → List Act → Except Failure Unit → Prop
  | done : PathActs dir [] [] (.ok ())
  | missing {role : PathRole} {path : String} {later : List (PathRole × String)} :
      PathActs dir ((role, path) :: later) [.probed (Path.join dir path) false]
        (.error (.ofFault (.missingPath role (Path.join dir path))))
  | found {role : PathRole} {path : String} {later : List (PathRole × String)} {acts : List Act}
      {r : Except Failure Unit} (hlater : PathActs dir later acts r) :
      PathActs dir ((role, path) :: later) (.probed (Path.join dir path) true :: acts) r

/-- The acts of the look at some paths are those of the grammar. -/
theorem pathActs_of_ends_checkPaths {dir : String} {paths : List (PathRole × String)}
    {acts : List Act} {r : Except Failure Unit} (h : (checkPaths dir paths).run.Ends acts r) :
    PathActs dir paths (acts.filter Act.isExternal) r := by
  induction paths generalizing acts with
  | nil =>
    obtain ⟨rfl, rfl⟩ := Script.ends_done_iff.1 h
    exact .done
  | cons first later ih =>
    obtain ⟨role, path⟩ := first
    obtain ⟨found, rest, rfl, hnext⟩ := Script.ends_probe_iff.1 h
    cases found with
    | false =>
      obtain ⟨rfl, rfl⟩ := Script.ends_done_iff.1 hnext
      exact .missing
    | true => exact .found (ih hnext)

/-- The external acts of the look at the paths of a configuration: its own file, the artifact of the
server and the directory of the data, in this order, each below the working directory. The look ends
at the first that is missing. -/
inductive LookActs (c : Config) (dir : String) : List Act → Except Failure Unit → Prop
  | noConfigFile : LookActs c dir [.probed (Path.join dir c.invocation.configFile) false]
      (.error (.ofFault (.missingPath .configFile (Path.join dir c.invocation.configFile))))
  | noArtifact : LookActs c dir [.probed (Path.join dir c.invocation.configFile) true,
        .probed (Path.join dir c.invocation.artifact) false]
      (.error (.ofFault (.missingPath .artifact (Path.join dir c.invocation.artifact))))
  | noDataDir : LookActs c dir [.probed (Path.join dir c.invocation.configFile) true,
        .probed (Path.join dir c.invocation.artifact) true,
        .probed (Path.join dir c.invocation.dataDir) false]
      (.error (.ofFault (.missingPath .dataDir (Path.join dir c.invocation.dataDir))))
  | complete : LookActs c dir [.probed (Path.join dir c.invocation.configFile) true,
        .probed (Path.join dir c.invocation.artifact) true,
        .probed (Path.join dir c.invocation.dataDir) true]
      (.ok ())

/-- The acts of the look at the paths of a configuration. -/
theorem lookActs_of_pathActs {c : Config} {dir : String} {acts : List Act} {r : Except Failure Unit}
    (h : PathActs dir c.invocation.paths acts r) : LookActs c dir acts r := by
  cases h with
  | missing => exact .noConfigFile
  | found h =>
    cases h with
    | missing => exact .noArtifact
    | found h =>
      cases h with
      | missing => exact .noDataDir
      | found h =>
        cases h
        exact .complete

/-! ### Runs at points -/

namespace Ledger

/-- Only external acts are entered. -/
theorem ofActs_filter_isExternal (acts : List Act) :
    ofActs (acts.filter Act.isExternal) = ofActs acts := by
  rw [ofActs, List.foldl_filter]
  congr 1
  funext l act
  cases act <;> rfl

theorem map_command_kill (l : Ledger) :
    (l.map Launch.kill).map Launch.command = l.map Launch.command := by
  rw [List.map_map]
  congr 1
  funext launch
  simp only [Function.comp, Launch.kill]
  split <;> rfl

/-- A command that has met its fate is not killed any more. -/
theorem getElem?_map_kill {l : Ledger} {i : Nat} {launch : Launch} (h : l[i]? = some launch)
    {fate : Except SystemError Behaviour} (hstand : launch.stand = .ofFate fate) :
    (l.map Launch.kill)[i]? = some launch := by
  have hkill : launch.kill = launch := by
    cases fate <;> simp [Launch.kill, Launch.isInFlight, hstand, Stand.ofFate]
  rw [List.getElem?_map, h, Option.map_some, hkill]

end Ledger

/-- The external acts of the runs at the points of a sweep. -/
structure PointActs (s : Sweep) (acts : List Act) (r : Except Failure Table) : Prop where
  isCommand : ∀ act ∈ acts, act.isCommand = true
  /-- The commands are the benchmark at the first points, in order. -/
  commands_eq : ∃ n, (Ledger.ofActs acts).map Launch.command =
    (s.config.grid.points.take n).map (s.config.commandAt s.dir)
  inFlight_eq : Ledger.inFlight (Ledger.ofActs acts) = 0
  /-- A table has the rows of all points; the command of each has exited with the status zero and
  has printed the metrics of the row. -/
  rows_of_ok : ∀ table, r = .ok table → table.rows.map Row.point = s.config.grid.points ∧
    ∀ (i : Nat) (row : Row), table.rows[i]? = some row →
      ∃ (launch : Launch) (ending : Command.Ending), (Ledger.ofActs acts)[i]? = some launch ∧
        launch.stand = .ended (.ended ending) ∧ ending.status.bits = 0 ∧
        Metrics.read ending.stdout = .ok row.metrics
  /-- A failure is that of the run at some point. -/
  failure_of_error : ∀ f, r = .error f → ∃ (i : Nat) (p : Point) (launch : Launch)
    (fate : Except SystemError Behaviour), s.config.grid.points[i]? = some p ∧
      (Ledger.ofActs acts)[i]? = some launch ∧ launch.stand = .ofFate fate ∧
      outcomeOf s.config p fate = .error f

namespace Window

variable {c : Config} {dir : String} {limit : Nat} {w w' : Window} {acts : List Act}

/-- The external acts of a move are commands. -/
theorem Step.isCommand (hc : c.benchmark ≠ []) (h : Step c dir limit w acts w') :
    ∀ act ∈ acts, act.isExternal = true → act.isCommand = true := by
  intro act hact hext
  cases h with
  | take => cases hact
  | start hslots hfirst hacts =>
    obtain ⟨refusal, rfl, -⟩ := (startAt_ends_iff hc).1 hacts
    rcases List.mem_pair.1 hact with rfl | rfl
    · cases hext
    · rfl
  | settle b hslots =>
    rcases List.mem_cons.1 hact with rfl | hmem
    · rfl
    · obtain ⟨event, -, rfl⟩ := List.mem_map.1 hmem
      cases hext
  | read hslots =>
    obtain rfl := List.mem_singleton.1 hact
    cases hext

theorem Steps.isCommand (hc : c.benchmark ≠ []) (h : Steps c dir limit w acts w') :
    ∀ act ∈ acts, act.isExternal = true → act.isCommand = true := by
  induction h with
  | refl => simp
  | head hstep _ ih =>
    intro act hact
    rcases List.mem_append.1 hact with hmem | hmem
    · exact hstep.isCommand hc act hmem
    · exact ih act hmem

/-- All acts at the end of a window are commands. -/
theorem Stops.isCommand {r : Progress × Except Failure Table} (h : Stops w acts r) :
    ∀ act ∈ acts, act.isCommand = true := by
  intro act hact
  cases h with
  | finish => cases hact
  | fail =>
    obtain rfl := List.mem_singleton.1 hact
    rfl

end Window

namespace Sweep

variable {s : Sweep} {progress : Progress}

/-- The acts of the runs at the points are those of the structure. -/
theorem pointActs_of_ends_runPoints (hbench : s.config.benchmark ≠ [])
    (hpar : s.config.parallel ≠ 0) {acts : List Act} {r : Progress × Except Failure Table}
    (h : (s.runPoints progress).Ends acts r) :
    PointActs s (acts.filter Act.isExternal) r.2 := by
  obtain ⟨moves, last, w, rfl, hcomes, hstop⟩ := comes_of_ends_runPoints hpar h
  have hsound := hcomes.sound hbench
  have hledger : Ledger.ofActs (List.filter Act.isExternal
      (.told ⟨.info, .sweep, gridText s.config.grid⟩ :: (moves ++ last))) =
      last.foldl Ledger.record (Ledger.ofActs moves) := by
    rw [Ledger.ofActs_filter_isExternal]
    exact Ledger.ofActs_append moves last
  obtain ⟨e, n, hn⟩ := hsound.exists_stretch
  constructor
  case isCommand =>
    intro act hact
    obtain ⟨hmem, hext⟩ := List.mem_filter.1 hact
    rcases List.mem_cons.1 hmem with rfl | hmem
    · cases hext
    · rcases List.mem_append.1 hmem with hmem | hmem
      · exact Window.Steps.isCommand hbench hcomes act hmem hext
      · exact hstop.isCommand act hmem
  case commands_eq =>
    rw [hledger]
    refine ⟨_, Eq.trans ?_ hn.commands_eq⟩
    cases hstop with
    | finish => rfl
    | fail => exact Ledger.map_command_kill _
  case inFlight_eq =>
    rw [hledger]
    exact hsound.inFlight_of_stops hstop
  case rows_of_ok =>
    intro table htable
    cases hstop with
    | fail => cases htable
    | finish hslots hrest =>
      cases htable
      rw [hledger]
      refine ⟨?_, fun i row hrow => ?_⟩
      · rw [hn.rows_eq, (hn.eq_length hslots hrest).1, List.take_length]
      · obtain ⟨launch, b, hl, hstand, hsettle⟩ := hn.row_of_command i row hrow
        have houtcome : outcomeOf s.config row.point (.ok b) = .ok row := hsettle
        obtain ⟨ending, metrics, hended, hsuccess, hread, hrow⟩ := outcomeOf_eq_ok_iff.1 houtcome
        cases hended
        have hmetrics : row.metrics = metrics := congrArg Row.metrics hrow
        exact ⟨launch, ending, hl, hstand, of_decide_eq_true hsuccess, hmetrics ▸ hread⟩
  case failure_of_error =>
    intro f hf
    obtain ⟨progress', result⟩ := r
    obtain rfl : result = .error f := hf
    obtain ⟨rfl, -, ⟨p, launch, fate, hp, hl, hstand, ho⟩, -⟩ := hsound.length_of_failed hstop
    rw [hledger]
    exact ⟨_, p, launch, fate, hp, Ledger.getElem?_map_kill hl hstand, hstand, ho⟩

/-! ### Whole sweeps -/

/-- The external acts of a sweep, with the progress that was made and the table that was saved. -/
inductive RunActs (s : Sweep) (progress : Progress) :
    List Act → Progress × Except Failure Table → Prop
  | buildFailed {builds : List Act} {f : Failure}
      (hbuild : BuildActs s.dir s.config.timeout s.config.build builds (.error f)) :
      RunActs s progress builds (progress, .error f)
  | pathMissing {builds looks : List Act} {f : Failure}
      (hbuild : BuildActs s.dir s.config.timeout s.config.build builds (.ok ()))
      (hlook : LookActs s.config s.dir looks (.error f)) :
      RunActs s progress (builds ++ looks) (progress, .error f)
  | pointFailed {builds looks runs : List Act} {progress' : Progress} {f : Failure}
      (hbuild : BuildActs s.dir s.config.timeout s.config.build builds (.ok ()))
      (hlook : LookActs s.config s.dir looks (.ok ()))
      (hrun : PointActs s runs (.error f)) :
      RunActs s progress (builds ++ (looks ++ runs)) (progress', .error f)
  | saved {builds looks runs : List Act} {progress' : Progress} {table : Table}
      (answer : Except Failure Unit)
      (hbuild : BuildActs s.dir s.config.timeout s.config.build builds (.ok ()))
      (hlook : LookActs s.config s.dir looks (.ok ()))
      (hrun : PointActs s runs (.ok table)) :
      RunActs s progress
        (builds ++ (looks ++ (runs ++ [.saved table (Path.join s.dir s.config.output) answer])))
        (progress', match answer with
          | .error f => .error (f.inContext (.saving (Path.join s.dir s.config.output)))
          | .ok _ => .ok table)

/-- The acts of the save at the end of a sweep. -/
theorem ends_save {table : Table} {acts : List Act} {r : Except Failure Table}
    (h : (s.save table).run.Ends acts r) :
    ∃ answer, acts.filter Act.isExternal = [.saved table (Path.join s.dir s.config.output) answer] ∧
      r = match answer with
        | .error f => .error (f.inContext (.saving (Path.join s.dir s.config.output)))
        | .ok _ => .ok table := by
  obtain ⟨answer, rest, rfl, hnext⟩ := Script.ends_save_iff.1 h
  cases answer with
  | error f =>
    obtain ⟨rfl, rfl⟩ := Script.ends_done_iff.1 hnext
    exact ⟨.error f, rfl, rfl⟩
  | ok _ =>
    obtain ⟨rest, rfl, hdone⟩ := Script.ends_note_iff.1 hnext
    obtain ⟨rfl, rfl⟩ := Script.ends_done_iff.1 hdone
    exact ⟨.ok (), rfl, rfl⟩

/-- A configuration that passes its check has commands and room for a run. -/
theorem of_ofConfig {c : Config} {dir : String} (hs : ofConfig c dir = .ok s) :
    s = ⟨c, c.workdir.getD dir⟩ ∧ c.benchmark ≠ [] ∧ [] ∉ c.build ∧ c.parallel ≠ 0 := by
  rw [ofConfig, Config.check] at hs
  split at hs
  · cases hs
  split at hs
  · cases hs
  split at hs
  · cases hs
  next hbench hbuild hpar =>
    refine ⟨?_, hbench, hbuild, hpar⟩
    cases hg : c.grid.check with
    | error e =>
      rw [hg] at hs
      cases hs
    | ok _ =>
      rw [hg] at hs
      cases hs
      rfl

/-- The acts of what comes before the runs. -/
theorem ends_prepare (hbuild : [] ∉ s.config.build) {acts : List Act} {r : Except Failure Unit}
    (h : s.prepare.run.Ends acts r) :
    (∃ f, r = .error f ∧
      BuildActs s.dir s.config.timeout s.config.build (acts.filter Act.isExternal) (.error f)) ∨
    ∃ builds looks, acts.filter Act.isExternal = builds ++ looks ∧
      BuildActs s.dir s.config.timeout s.config.build builds (.ok ()) ∧
      LookActs s.config s.dir looks r := by
  rw [prepare, Attempt.run_bind, Attempt.run_tell] at h
  obtain ⟨acts, rfl, hnext⟩ := Script.ends_note_iff.1 h
  change (build s.config.build s.dir s.config.timeout >>= _ : Attempt Unit).run.Ends acts r at hnext
  rcases Attempt.ends_bind_iff.1 hnext with ⟨f, hfailed, rfl⟩ | ⟨_, acts₁, acts₂, rfl, h₁, h₂⟩
  · have hb := buildActs_of_ends_build hbuild hfailed
    exact .inl ⟨f, rfl, hb⟩
  · refine .inr ⟨_, _, List.filter_append .., buildActs_of_ends_build hbuild h₁, ?_⟩
    exact lookActs_of_pathActs (pathActs_of_ends_checkPaths h₂)

/-- The acts of every sweep that ends are those of the grammar. -/
theorem runActs_of_ends (hbench : s.config.benchmark ≠ []) (hbuild : [] ∉ s.config.build)
    (hpar : s.config.parallel ≠ 0) {acts : List Act} {r : Progress × Except Failure Table}
    (h : (s.run progress).Ends acts r) : RunActs s progress (acts.filter Act.isExternal) r := by
  rw [run, Script.bind_eq] at h
  obtain ⟨ready, acts₁, acts₂, rfl, hprepare, hnext⟩ := Script.ends_bind_iff.1 h
  rw [List.filter_append]
  rcases ends_prepare hbuild hprepare with ⟨f, rfl, hb⟩ | ⟨builds, looks, he, hb, hl⟩
  · obtain ⟨rfl, rfl⟩ := Script.ends_done_iff.1 hnext
    rw [List.filter_nil, List.append_nil]
    exact .buildFailed hb
  · rw [he, List.append_assoc]
    cases ready with
    | error f =>
      obtain ⟨rfl, rfl⟩ := Script.ends_done_iff.1 hnext
      rw [List.filter_nil, List.append_nil]
      exact .pathMissing hb hl
    | ok _ =>
      dsimp only at hnext
      rw [Script.bind_eq] at hnext
      obtain ⟨⟨progress', result⟩, acts₂, acts₃, rfl, hpoints, hlast⟩ :=
        Script.ends_bind_iff.1 hnext
      have hrun := pointActs_of_ends_runPoints hbench hpar hpoints
      rw [List.filter_append]
      cases result with
      | error f =>
        obtain ⟨rfl, rfl⟩ := Script.ends_done_iff.1 hlast
        rw [List.filter_nil, List.append_nil]
        exact .pointFailed hb hl hrun
      | ok table =>
        dsimp only at hlast
        rw [Script.bind_eq] at hlast
        obtain ⟨saved, acts₃, acts₄, rfl, hsave, hdone⟩ := Script.ends_bind_iff.1 hlast
        obtain ⟨rfl, rfl⟩ := Script.ends_done_iff.1 hdone
        obtain ⟨answer, hext, rfl⟩ := ends_save hsave
        rw [List.append_nil, hext]
        exact .saved answer hb hl hrun

/-! ### All or nothing -/

end Sweep

theorem Act.isSave_of_isCommand {act : Act} (h : act.isCommand = true) : act.isSave = false := by
  cases act <;> first | rfl | cases h

theorem BuildActs.isCommand {dir : String} {limit : Option Duration} {steps : List (List String)}
    {acts : List Act} {r : Except Failure Unit} (h : BuildActs dir limit steps acts r) :
    ∀ act ∈ acts, act.isCommand = true := by
  induction h with
  | done => simp
  | refused | overran | failed => simp [Act.isCommand]
  | passed h _ ih => simpa [Act.isCommand] using ih

theorem LookActs.isSave {c : Config} {dir : String} {acts : List Act} {r : Except Failure Unit}
    (h : LookActs c dir acts r) : ∀ act ∈ acts, act.isSave = false := by
  cases h <;> simp [Act.isSave]

namespace Sweep

variable {s : Sweep} {progress : Progress}

/-- A sweep saves nothing, or it saves once and then ends as the save does. -/
theorem RunActs.save_or_not {acts : List Act} {r : Progress × Except Failure Table}
    (h : RunActs s progress acts r) :
    ((∃ f, r.2 = .error f) ∧ ∀ act ∈ acts, act.isSave = false) ∨
    ∃ before table answer,
      acts = before ++ [.saved table (Path.join s.dir s.config.output) answer] ∧
      (∀ act ∈ before, act.isSave = false) ∧
      table.rows.map Row.point = s.config.grid.points ∧
      r.2 = match answer with
        | .error f => .error (f.inContext (.saving (Path.join s.dir s.config.output)))
        | .ok _ => .ok table := by
  have hcommands {acts : List Act} (hacts : ∀ act ∈ acts, act.isCommand = true) :
      ∀ act ∈ acts, act.isSave = false := fun act hact => Act.isSave_of_isCommand (hacts act hact)
  cases h with
  | buildFailed hbuild => exact .inl ⟨⟨_, rfl⟩, hcommands hbuild.isCommand⟩
  | pathMissing hbuild hlook =>
    refine .inl ⟨⟨_, rfl⟩, ?_⟩
    exact List.forall_mem_append.2 ⟨hcommands hbuild.isCommand, hlook.isSave⟩
  | pointFailed hbuild hlook hrun =>
    refine .inl ⟨⟨_, rfl⟩, ?_⟩
    exact List.forall_mem_append.2 ⟨hcommands hbuild.isCommand,
      List.forall_mem_append.2 ⟨hlook.isSave, hcommands hrun.isCommand⟩⟩
  | @saved builds looks runs progress' table answer hbuild hlook hrun =>
    refine .inr ⟨builds ++ (looks ++ runs), table, answer, by simp, ?_, ?_, rfl⟩
    · exact List.forall_mem_append.2 ⟨hcommands hbuild.isCommand,
        List.forall_mem_append.2 ⟨hlook.isSave, hcommands hrun.isCommand⟩⟩
    · exact (hrun.rows_of_ok table rfl).1

/-- **A sweep is all or nothing.** It has the configuration that it is made of, and the directory
that this one names, or else the given one. Every beginning of a sweep can be brought to an end. The
external acts of a sweep that ends are those of its phases. A table is given only after it has been
saved, once, below the directory, and it has a row for every point. A failure is that of the save,
or there is no save, and then no tree changes while no command runs. -/
theorem run_phases {c : Config} {dir : String} (hs : ofConfig c dir = .ok s)
    (progress : Progress) :
    s.config = c ∧ s.dir = c.workdir.getD dir ∧
    (∀ acts t, (s.run progress).Reaches acts t →
      ∃ more r, (s.run progress).Ends (acts ++ more) r) ∧
    ∀ acts r, (s.run progress).Ends acts r →
      RunActs s progress (acts.filter Act.isExternal) r ∧
      (∀ table, r.2 = .ok table →
        table.size = c.grid.servers.length * c.grid.clients.length * c.grid.ratios.length ∧
        table.rows.map Row.point = c.grid.points ∧
        ∃ before, acts.filter Act.isExternal =
            before ++ [.saved table (Path.join s.dir c.output) (.ok ())] ∧
          ∀ act ∈ before, act.isSave = false) ∧
      ∀ f, r.2 = .error f →
        (∃ before table g,
          acts.filter Act.isExternal =
            before ++ [.saved table (Path.join s.dir c.output) (.error g)] ∧
          (∀ act ∈ before, act.isSave = false) ∧
          f = g.inContext (.saving (Path.join s.dir c.output))) ∨
        (∀ act ∈ acts, act.isSave = false) ∧
          ∀ before middle after, acts = before ++ (middle ++ after) →
            (∀ act ∈ middle, act.isCommand = false) →
            ∀ here d d', Disk.Changes here middle d d' → d' = d := by
  obtain ⟨rfl, hbench, hbuild, hpar⟩ := of_ofConfig hs
  refine ⟨rfl, rfl, fun acts t hreach => ?_, fun acts r hends => ?_⟩
  · obtain ⟨more, r, hmore⟩ := t.exists_ends
    exact ⟨more, r, hreach.trans hmore⟩
  have hacts := runActs_of_ends hbench hbuild hpar hends
  refine ⟨hacts, fun table htable => ?_, fun f hf => ?_⟩
  · rcases hacts.save_or_not with ⟨⟨f, hf⟩, -⟩ | ⟨before, saved, answer, he, hquiet, hrows, hr⟩
    · cases hf.symm.trans htable
    cases answer with
    | error f => cases hr.symm.trans htable
    | ok _ =>
      cases hr.symm.trans htable
      refine ⟨?_, hrows, before, he, hquiet⟩
      have hlength := congrArg List.length hrows
      rw [List.length_map, Grid.length_points] at hlength
      exact hlength
  · rcases hacts.save_or_not with ⟨-, hquiet⟩ | ⟨before, saved, answer, he, hquiet, hrows, hr⟩
    · have hnone : ∀ act ∈ acts, act.isSave = false := by
        intro act hact
        cases hext : act.isExternal with
        | true => exact hquiet act (List.mem_filter.2 ⟨hact, hext⟩)
        | false => cases act <;> first | rfl | cases hext
      refine .inr ⟨hnone, fun before middle after he hmiddle here d d' hd => ?_⟩
      refine hd.eq_of_quiet fun act hact => ⟨hmiddle act hact, hnone act ?_⟩
      rw [he]
      exact List.mem_append_right _ (List.mem_append_left _ hact)
    cases answer with
    | ok _ => cases hr.symm.trans hf
    | error g =>
      cases hr.symm.trans hf
      exact .inl ⟨before, saved, g, he, hquiet, rfl⟩

/-- Two runs of one sweep. The artifact of the server is missing, and the sweep ends there; or all
three paths are found, the runs at two points print different numbers, and their table is saved. -/
theorem run_phases_missing_or_saved :
    let grid : Grid := ⟨[1, 2], [5], [⟨0x3FE0000000000000⟩]⟩
    let c : Config :=
      { build := [["make"]], benchmark := ["run"], grid, output := "out.csv", parallel := 2,
        timeoutSeconds := some 60 }
    let s : Sweep := ⟨c, "/work"⟩
    let missing : Failure := .ofFault (.missingPath .artifact "/work/KVServer.jar")
    ofConfig c "/work" = .ok s ∧
    (∃ acts built, (s.run .hidden).Ends acts (.hidden, .error missing) ∧
      acts.filter Act.isExternal =
        [.launched ⟨"make", [], "/work"⟩ (some (.ofSeconds 60)) none, .awaited 0 built,
          .probed "/work/ecs.config" true, .probed "/work/KVServer.jar" false] ∧
      ∀ act ∈ acts, act.isSave = false) ∧
    ∃ acts before table, (s.run .hidden).Ends acts (Progress.hidden.finish, .ok table) ∧
      table.rows.map Row.record =
        [["1", "5", "0.5", "1", "2", "3", "4", "5"], ["2", "5", "0.5", "6", "7", "8", "9", "10"]] ∧
      acts.filter Act.isExternal = before ++ [.saved table "/work/out.csv" (.ok ())] ∧
      ∀ act ∈ before, act.isSave = false := by
  intro grid c s missing
  have hs : ofConfig c "/work" = .ok s := by decide +kernel
  obtain ⟨-, -, -, hphases⟩ := run_phases hs .hidden
  have hfile : Path.join s.dir s.config.invocation.configFile = "/work/ecs.config" := by
    decide +kernel
  have hartifact : Path.join s.dir s.config.invocation.artifact = "/work/KVServer.jar" := by
    decide +kernel
  have houtput : Path.join s.dir c.output = "/work/out.csv" := by decide +kernel
  let built : Behaviour := .ended ⟨.exited 0, [], []⟩
  have hmissing : (s.run .hidden).Ends _ (.hidden, .error (.ofFault (.missingPath .artifact
      (Path.join s.dir s.config.invocation.artifact)))) :=
    .note (.note (.note (.launch none (.await 0 built (.note (.probe true (.probe false
      (.refl _))))))))
  let printed (n : Nat) : Behaviour :=
    .ended ⟨.exited 0, Text.bytesOf (if n = 0 then "1\n2\n3\n4\n5\n" else "6\n7\n8\n9\n10\n"), []⟩
  let table : Table := ⟨[⟨⟨0, 1, 5, ⟨0x3FE0000000000000⟩⟩, "1", "2", "3", "4", "5"⟩,
    ⟨⟨1, 2, 5, ⟨0x3FE0000000000000⟩⟩, "6", "7", "8", "9", "10"⟩]⟩
  have hverdict : verdict .hidden (s.config.grid.points.map fun p =>
      outcomeOf s.config p (.ok (printed p.index))) = (Progress.hidden.finish, .ok table) := by
    decide +kernel
  have hprepare : s.prepare.run.Ends _ (.ok ()) :=
    .note (.note (.note (.launch none (.await 0 built (.note (.probe true (.probe true
      (.probe true (.refl _)))))))))
  obtain ⟨acts, hsaved⟩ := exists_ends_run (by decide) (by decide) hprepare
    (fun n => .ok (printed n)) hverdict
  rw [hartifact] at hmissing
  refine ⟨hs, ⟨_, built, hmissing, ?_, ?_⟩, ?_⟩
  · rw [← hfile, ← hartifact]
    rfl
  · obtain ⟨-, -, herror⟩ := hphases _ _ hmissing
    rcases herror _ rfl with ⟨before, table, g, he, -⟩ | ⟨hquiet, -⟩
    · have hlast := congrArg List.getLast? he
      rw [List.getLast?_concat] at hlast
      cases hlast
    · exact hquiet
  · obtain ⟨-, hok, -⟩ := hphases _ _ hsaved
    obtain ⟨-, -, before, he, hquiet⟩ := hok table rfl
    rw [houtput] at he
    exact ⟨_, before, table, hsaved, by decide +kernel, he, hquiet⟩

end Sweep

end BenchSweep
