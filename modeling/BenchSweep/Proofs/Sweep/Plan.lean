import BenchSweep.CommandLine.Run
import BenchSweep.Proofs.Script.Follows
import BenchSweep.Proofs.Sweep.Order
import BenchSweep.Proofs.Sweep.Phases

/-!
# The plan of a sweep

The plan is what the runs do: its lines are the words of the commands that the runs start, in the
order in which they are started, and each ends in the values of the point whose record is in the
same place of the table. A sweep first follows the lines of its build steps and then those of its
plan; if it is cut short, it has followed the first of them.

## Why the plan is compared with launches

The plan is text that is computed without running anything, and a user reads it to know what a sweep
will do. So it is worth something only if the commands that are launched later have these words, in
this order. `Script.Follows` passes the lines along the script of a sweep, and every launch has to
take the next one; there is no other list of commands to compare with.

## Scope

A sweep that fails, or is cut short, launches the first of the lines and not all of them. The words
of a line are what a program is given. How they would be quoted for a shell is no part of the plan,
and neither is the directory, which is the same for all of them.

## Main definitions

* `Window.pending`: the points of a window that have not been started.

## Main results

* `Window.follows_run`: a window follows the lines of its points.
* `Sweep.follows_run`: a sweep follows its build steps and then its plan.
* `Sweep.plan_of_ofConfig`: the plan of a sweep and what the sweep does.
-/

namespace BenchSweep

open Number (countText natText)

variable {dir : String} {strict : Bool}

/-! ### Build steps and paths -/

/-- A note leaves every line. -/
theorem follows_tell (level : Level) (topic : Topic) (message : String)
    (lines : List (List String)) :
    (Script.tell level topic message : Attempt Unit).run.Follows dir strict (Leaves lines) lines :=
  rfl

theorem follows_awaitOne (lines : List (List String)) :
    awaitOne.run.Follows dir strict (Leaves lines) lines :=
  fun _ _ => rfl

/-- A command that is run by itself is one line. -/
theorem Command.follows_run (command : Command) (limit : Option Duration) (target : String)
    (later : List (List String)) :
    (command.run limit target).run.Follows command.dir strict (Leaves later)
      (command.line :: later) := by
  have hlaunch : (command.launch limit target).run.Follows command.dir strict (Leaves later)
      (command.line :: later) := ⟨later, rfl, rfl, fun _ => trivial, rfl⟩
  refine Attempt.follows_bind hlaunch fun _ => ?_
  refine Attempt.follows_bind (follows_awaitOne later) fun b => ?_
  cases b.settle limit target <;> trivial

theorem line_stepCommand {step : List String} (hstep : step ≠ []) (dir : String) :
    (stepCommand dir step).line = step := by
  obtain ⟨program, leading, rfl⟩ := List.exists_cons_of_ne_nil hstep
  rfl

/-- A build step is one line. -/
theorem follows_buildStep {step : List String} (hstep : step ≠ []) (limit : Option Duration)
    (later : List (List String)) :
    (buildStep step dir limit).run.Follows dir strict (Leaves later) (step :: later) := by
  obtain ⟨event, hprepare⟩ := Command.prepare_run hstep [] dir
  refine Attempt.follows_bind (follows_tell .info .build _ (step :: later)) fun _ => ?_
  rw [Attempt.run_bind, hprepare, List.append_nil]
  have hrun : ((stepCommand dir step).run limit (stepName step)).run.Follows dir strict
      (Leaves later) ((stepCommand dir step).line :: later) := Command.follows_run _ limit _ later
  rw [line_stepCommand hstep] at hrun
  refine Attempt.follows_bind hrun fun ending => ?_
  split <;> trivial

/-- The build steps are the first lines. -/
theorem follows_build {steps : List (List String)} (hsteps : [] ∉ steps) (limit : Option Duration)
    (later : List (List String)) :
    (build steps dir limit).run.Follows dir strict (Leaves later) (steps ++ later) := by
  induction steps with
  | nil => rfl
  | cons step steps ih =>
    obtain ⟨hstep, hsteps⟩ := not_or.1 (List.mem_cons.not.1 hsteps)
    exact Attempt.follows_bind (follows_buildStep (Ne.symm hstep) limit _) fun _ => ih hsteps

theorem follows_checkPaths (paths : List (PathRole × String)) (lines : List (List String)) :
    (checkPaths dir paths).run.Follows dir strict (Leaves lines) lines := by
  induction paths with
  | nil => rfl
  | cons path later ih =>
    intro found
    dsimp only
    split
    · exact ih
    · trivial

theorem line_commandAt {c : Config} (hc : c.benchmark ≠ []) (dir : String) (p : Point) :
    (c.commandAt dir p).line = c.lineAt p := by
  obtain ⟨program, leading, hbench⟩ := List.exists_cons_of_ne_nil hc
  rw [Config.commandAt, Command.line, Config.lineAt, hbench]
  rfl

/-- The point of a slot that waits. -/
def Slot.waiting? : Slot → Option Point
  | waiting p => some p
  | _ => none

namespace Window

variable {c : Config} {limit : Nat}

/-- The points that have not been started: those that wait in the window, and those after it. -/
def pending (w : Window) : List Point :=
  w.slots.filterMap Slot.waiting? ++ w.rest

theorem pending_refill (limit : Nat) (w : Window) : (w.refill limit).pending = w.pending := by
  have hwaiting (points : List Point) : (points.map .waiting).filterMap Slot.waiting? = points := by
    rw [List.filterMap_map]
    exact List.filterMap_some
  rw [pending, refill, List.filterMap_append, hwaiting, List.append_assoc, List.take_append_drop,
    pending]

theorem length_refill_le {w : Window} (hw : w.slots.length ≤ limit) :
    (w.refill limit).slots.length ≤ limit := by
  simp only [refill, List.length_append, List.length_map, List.length_take]
  omega

/-- Slots that do not wait are passed over. -/
theorem pending_append_cons {table : Table} {progress : Progress} {before after : List Slot}
    {slot : Slot} {rest : List Point} (hfirst : ∀ q, .waiting q ∉ before) :
    pending ⟨table, progress, before ++ slot :: after, rest⟩ =
      slot.waiting?.toList ++ pending ⟨table, progress, after, rest⟩ := by
  have hnone : before.filterMap Slot.waiting? = [] := by
    rw [List.filterMap_eq_nil_iff]
    rintro (p | p | ⟨p, o⟩) hslot
    · exact absurd hslot (hfirst p)
    · rfl
    · rfl
  rw [pending, List.filterMap_append, hnone, List.nil_append, pending]
  cases slot <;> rfl

theorem waiting?_startedSlot (p : Point) (started : Except Failure Unit) :
    (startedSlot p started).waiting? = none := by
  cases started <;> rfl

/-- A window of one slot has nothing beside the slot. -/
theorem eq_nil_of_length_le_one {before after : List Slot} {slot : Slot}
    (h : (before ++ slot :: after).length ≤ 1) : before = [] ∧ after = [] := by
  simp only [List.length_append, List.length_cons] at h
  simp only [List.eq_nil_iff_length_eq_zero]
  omega

/-- With room for one point, nothing is launched after a failure. -/
theorem follows_run_one_failed (table : Table) (progress : Progress) (p : Point) (f : Failure)
    (rest : List Point) (lines : List (List String)) :
    (run c dir 1 ⟨table, progress, [.settled p (.error f)], rest⟩).Follows dir strict
      (fun _ _ => True) lines := by
  rw [run_one_settled]
  trivial

/-- The points that have not been started are the next lines. With room for one point, a refusal
ends the run. -/
theorem follows_run (hc : c.benchmark ≠ []) (hstrict : strict = true → limit = 1) (w : Window)
    (hroom : w.slots.length ≤ limit) :
    (run c dir limit w).Follows dir strict (fun _ _ => True) (w.pending.map c.lineAt) := by
  induction w using run.induct c limit with
  | case1 w table progress hf =>
    rw [run_of_nil hf, if_pos rfl]
    trivial
  | case2 w table progress rest hf hrest =>
    rw [run_of_nil hf, if_neg hrest]
    trivial
  | case3 w table progress p f later rest hf =>
    rw [run_of_failed hf]
    trivial
  | case4 w table progress p row later rest hf ih =>
    have hlength := length_refill_le hroom
    rw [hf] at hlength
    rw [run_of_row hf, ← pending_refill limit, hf]
    exact ih (Nat.le_of_succ_le hlength)
  | case5 w table progress slot later rest hfailed hrow hf before p after hw ih =>
    have hslots := eq_of_splitWaiting hw
    have hfirst := not_mem_of_splitWaiting hw
    have hlength := length_refill_le hroom
    rw [hf, hslots] at hlength
    have hnext (started : Except Failure Unit) :
        (run c dir limit ⟨table, progress, before ++ startedSlot p started :: after, rest⟩).Follows
          dir strict (fun _ _ => True)
          ((pending ⟨table, progress, after, rest⟩).map c.lineAt) := by
      have h := ih started (by simpa using hlength)
      rwa [pending_append_cons hfirst, waiting?_startedSlot] at h
    rw [run_of_waiting (ne_settled hfailed hrow) hf hw, startAt_run hc, ← pending_refill limit, hf,
      hslots, pending_append_cons hfirst]
    refine ⟨_, ?_, rfl, fun e => ?_, hnext (.ok ())⟩
    · rw [line_commandAt hc]
      rfl
    · split
      next hs =>
        obtain rfl := hstrict hs
        obtain ⟨rfl, rfl⟩ := eq_nil_of_length_le_one hlength
        exact follows_run_one_failed table progress p _ rest []
      next => exact hnext (startedAs p (some e))
  | case6 w table progress slot later rest hfailed hrow hf hw ih =>
    have hlength := length_refill_le hroom
    rw [hf] at hlength
    rw [run_of_running (ne_settled hfailed hrow) hf hw, ← pending_refill limit, hf]
    intro i b
    dsimp only
    split
    · trivial
    next before p after hr =>
      have hslots := eq_of_splitRunning hr
      have hfirst (q : Point) : .waiting q ∉ before := fun hq =>
        not_mem_of_splitWaiting_eq_none hw q (hslots ▸ List.mem_append_left _ hq)
      rw [hslots] at hlength
      have h := ih i b before p after hr (by simpa using hlength)
      rw [pending_append_cons hfirst] at h
      rw [Script.follows_tellAll, hslots, pending_append_cons hfirst]
      exact h

end Window

/-! ### Runs at points -/

/-- The run at a point launches one command, whatever comes of it. -/
theorem commands_of_ends_runPoint {c : Config} (hc : c.benchmark ≠ []) {p : Point}
    {acts : List Act} {r : Except Failure Row} (h : (runPoint c dir p).run.Ends acts r) :
    acts.filterMap Act.command? = [c.commandAt dir p] := by
  rw [runPoint] at h
  rcases Attempt.ends_bind_iff.1 h with ⟨f, hstart, -⟩ | ⟨_, first, rest, rfl, hstart, hrest⟩
  · obtain ⟨refusal, rfl, -⟩ := (startAt_ends_iff hc).1 hstart
    rfl
  · obtain ⟨refusal, rfl, -⟩ := (startAt_ends_iff hc).1 hstart
    have hnone : rest.filterMap Act.command? = [] := by
      obtain ⟨i, b, rest, rfl, htell⟩ := Script.ends_await_iff.1 hrest
      obtain ⟨rest, rfl, hdone⟩ := Script.ends_tellAll_iff.1 htell
      obtain ⟨rfl, -⟩ := Script.ends_done_iff.1 hdone
      simp [Act.command?]
    rw [List.filterMap_append, hnone]
    rfl

/-! ### Whole sweeps -/

namespace Sweep

variable {s : Sweep}

theorem follows_prepare (hbuild : [] ∉ s.config.build) (lines : List (List String)) :
    s.prepare.run.Follows s.dir strict (Leaves lines) (s.config.build ++ lines) := by
  refine Attempt.follows_bind (follows_tell .info .sweep _ (s.config.build ++ lines)) fun _ => ?_
  exact Attempt.follows_bind (follows_build hbuild _ lines) fun _ => follows_checkPaths _ lines

theorem follows_runPoints (hbench : s.config.benchmark ≠ [])
    (hstrict : strict = true → s.config.parallel.toNat = 1) (progress : Progress) :
    (s.runPoints progress).Follows s.dir strict (fun _ _ => True) s.plan :=
  Window.follows_run hbench hstrict (.start progress s.config.grid.points) (Nat.zero_le _)

theorem follows_save (table : Table) (lines : List (List String)) :
    (s.save table).run.Follows s.dir strict (fun _ _ => True) lines := by
  intro answer
  cases answer <;> trivial

/-- A sweep follows its build steps and then its plan. -/
theorem follows_run (hbench : s.config.benchmark ≠ []) (hbuild : [] ∉ s.config.build)
    (hstrict : strict = true → s.config.parallel.toNat = 1) (progress : Progress) :
    (s.run progress).Follows s.dir strict (fun _ _ => True) (s.config.build ++ s.plan) := by
  rw [run, Script.bind_eq, Script.follows_bind]
  refine (follows_prepare hbuild s.plan).mono fun ready later hready => ?_
  cases ready with
  | error f => trivial
  | ok _ =>
    obtain rfl : later = s.plan := hready
    dsimp only
    rw [Script.bind_eq, Script.follows_bind]
    refine (follows_runPoints hbench hstrict progress).mono ?_
    rintro ⟨progress', result⟩ later -
    cases result with
    | error f => trivial
    | ok table =>
      dsimp only
      rw [Script.bind_eq, Script.follows_bind]
      exact (follows_save table later).mono fun _ _ _ => trivial

/-- What is launched of lines that are followed, and with room for one point, what is started. -/
theorem prefix_of_reaches {α : Type} {x t : Script α} {acts : List Act} {room : UInt64}
    {lines : List (List String)} (h : x.Reaches acts t)
    (hfollows : ∀ strict, (strict = true → room.toNat = 1) →
      x.Follows dir strict (fun _ _ => True) lines) :
    (acts.filterMap Act.command?).map Command.line <+: lines ∧
      (∀ command ∈ acts.filterMap Act.command?, command.dir = dir) ∧
      (room = 1 → (acts.filterMap Act.started?).map Command.line <+: lines) := by
  obtain ⟨hcommands, hdir, -⟩ := h.prefix_of_follows (hfollows false nofun)
  refine ⟨hcommands, hdir, fun hone => ?_⟩
  have hroom : room.toNat = 1 := by rw [hone]; rfl
  exact (h.prefix_of_follows (hfollows true fun _ => hroom)).2.2 rfl

theorem getElem?_plan {i : Nat} {p : Point} (h : s.config.grid.points[i]? = some p) :
    s.plan[i]? = some (s.config.lineAt p) := by
  rw [plan, List.getElem?_map, h]
  rfl

/-- The last words of a line are the first fields of the record of its point. -/
theorem take_record_eq_drop_lineAt (c : Config) (row : Row) :
    row.record.take 3 = (c.lineAt row.point).drop ((c.lineAt row.point).length - 3) := by
  have hline : c.lineAt row.point = (c.benchmark ++ c.invocation.args) ++ row.point.args :=
    (List.append_assoc ..).symm
  have hdrop : (c.benchmark ++ c.invocation.args).length = (c.lineAt row.point).length - 3 := by
    have hargs : row.point.args.length = 3 := rfl
    simp only [hline, List.length_append, hargs]
    omega
  rw [hline, List.drop_left' (hline ▸ hdrop)]
  rfl

/-- **The plan of a sweep and what the sweep does.** The plan has one line for each point, and it is
the words of the one command that the run at the point launches. The runs at the points, when they
are cut short, have launched the first lines of the plan, in order and in one directory; with room
for one point, so it is with the commands that were not refused. A sweep launches its build steps
before that. A table is given after it has been saved, and the record of each point starts with the
last words of its line. A dry run makes no request. -/
theorem plan_of_ofConfig {c : Config} (hs : ofConfig c dir = .ok s) :
    s.plan.length = c.grid.points.length ∧
    (∀ (i : Nat) (p : Point), c.grid.points[i]? = some p →
      s.plan[i]? = some (c.benchmark ++
        [c.invocation.configFile, c.invocation.host, natText c.invocation.port.toNat,
          c.invocation.artifact, c.invocation.dataDir] ++
        [countText p.servers, countText p.clients, p.ratio.ratioText]) ∧
      ∀ acts r, (runPoint c s.dir p).run.Ends acts r →
        ∃ command, acts.filterMap Act.command? = [command] ∧
          s.plan[i]? = some command.line ∧ command.dir = s.dir) ∧
    (∀ progress acts t, (s.runPoints progress).Reaches acts t →
      (acts.filterMap Act.command?).map Command.line <+: s.plan ∧
      (∀ command ∈ acts.filterMap Act.command?, command.dir = s.dir) ∧
      (c.parallel = 1 → (acts.filterMap Act.started?).map Command.line <+: s.plan)) ∧
    (∀ progress acts t, (s.run progress).Reaches acts t →
      (acts.filterMap Act.command?).map Command.line <+: c.build ++ s.plan ∧
      (∀ command ∈ acts.filterMap Act.command?, command.dir = s.dir) ∧
      (c.parallel = 1 →
        (acts.filterMap Act.started?).map Command.line <+: c.build ++ s.plan)) ∧
    (∀ progress acts progress' table, (s.run progress).Ends acts (progress', .ok table) →
      (∃ before, acts.filter Act.isExternal = before ++ [.saved table s.outputPath (.ok ())]) ∧
      table.rows.length = s.plan.length ∧
      ∀ (i : Nat) (line : List String), s.plan[i]? = some line →
        ∃ row, table.rows[i]? = some row ∧ row.record.take 3 = line.drop (line.length - 3)) ∧
    ∀ readText env args settings, CommandLine.Settings.read args env = .ok settings →
      settings.has .dryRun = true → settings.config readText = .ok c →
      CommandLine.run readText env dir args = .done (.printed s.planText) := by
  obtain ⟨rfl, hbench, hbuild, hpar⟩ := of_ofConfig hs
  refine ⟨List.length_map .., fun i p hp => ⟨?_, fun acts r hends => ?_⟩,
    fun progress acts t hreach => prefix_of_reaches hreach fun strict hstrict =>
      follows_runPoints hbench hstrict progress,
    fun progress acts t hreach => prefix_of_reaches hreach fun strict hstrict =>
      follows_run hbench hbuild hstrict progress,
    fun progress acts progress' table hends => ?_,
    fun readText env args settings hread hdry hconfig => ?_⟩
  · rw [List.append_assoc]
    exact getElem?_plan hp
  · refine ⟨_, commands_of_ends_runPoint hbench hends, ?_, rfl⟩
    rw [line_commandAt hbench]
    exact getElem?_plan hp
  · rcases (runActs_of_ends hbench hbuild hpar hends).save_or_not with
      ⟨⟨f, hf⟩, -⟩ | ⟨before, saved, answer, he, -, hrows, hr⟩
    · cases hf
    cases answer with
    | error f => cases hr
    | ok _ =>
      cases hr
      have hlength := congrArg List.length hrows
      refine ⟨⟨before, he⟩, by simpa [plan] using hlength, fun i line hline => ?_⟩
      rw [plan, ← hrows, List.map_map, List.getElem?_map] at hline
      obtain ⟨row, hrow, rfl⟩ := Option.map_eq_some_iff.1 hline
      exact ⟨row, hrow, take_record_eq_drop_lineAt c row⟩
  · rw [CommandLine.run, hread]
    dsimp only
    rw [CommandLine.runSettings, hconfig]
    dsimp only
    rw [hs]
    dsimp only
    rw [CommandLine.runSweep, if_pos hdry]

/-- A sweep of one build step and two points, whose runs print different numbers. -/
theorem plan_of_ofConfig_two_points :
    let grid : Grid := ⟨[2], [5, 8], [⟨0x3FE0000000000000⟩]⟩
    let c : Config := { build := [["make"]], benchmark := ["run", "-v"], grid }
    let s : Sweep := ⟨c, "/work"⟩
    ofConfig c "/work" = .ok s ∧
      s.plan =
        [["run", "-v", "ecs.config", "127.0.0.1", "2181", "KVServer.jar", "maildir", "2", "5",
            "0.5"],
          ["run", "-v", "ecs.config", "127.0.0.1", "2181", "KVServer.jar", "maildir", "2", "8",
            "0.5"]] ∧
      ∃ acts row row', (s.run .hidden).Ends acts (Progress.hidden.finish, .ok ⟨[row, row']⟩) ∧
        row.record.take 3 = ["2", "5", "0.5"] ∧ row.record.drop 3 = ["1", "2", "3", "4", "5"] ∧
        row'.record.take 3 = ["2", "8", "0.5"] ∧ row'.record.drop 3 = ["6", "7", "8", "9", "10"] ∧
        (acts.filterMap Act.started?).map Command.line <+: ["make"] :: s.plan := by
  intro grid c s
  have hs : ofConfig c "/work" = .ok s := by decide +kernel
  obtain ⟨-, -, -, hfollows, hrows, -⟩ := plan_of_ofConfig hs
  have hplan : s.plan =
      [["run", "-v", "ecs.config", "127.0.0.1", "2181", "KVServer.jar", "maildir", "2", "5", "0.5"],
        ["run", "-v", "ecs.config", "127.0.0.1", "2181", "KVServer.jar", "maildir", "2", "8",
          "0.5"]] := by
    decide +kernel
  let printed (n : Nat) : Behaviour :=
    .ended ⟨.exited 0, Text.bytesOf (if n = 0 then "1\n2\n3\n4\n5\n" else "6\n7\n8\n9\n10\n"), []⟩
  let row : Row := ⟨⟨0, 2, 5, ⟨0x3FE0000000000000⟩⟩, "1", "2", "3", "4", "5"⟩
  let row' : Row := ⟨⟨1, 2, 8, ⟨0x3FE0000000000000⟩⟩, "6", "7", "8", "9", "10"⟩
  have hverdict : verdict .hidden (s.config.grid.points.map fun p =>
      outcomeOf s.config p (.ok (printed p.index))) =
        (Progress.hidden.finish, .ok ⟨[row, row']⟩) := by
    decide +kernel
  have hprepare : s.prepare.run.Ends _ (.ok ()) :=
    .note (.note (.note (.launch none (.await 0 (.ended ⟨.exited 0, [], []⟩) (.note (.probe true
      (.probe true (.probe true (.refl _)))))))))
  obtain ⟨acts, hends⟩ := exists_ends_run (by decide) (by decide) hprepare
    (fun n => .ok (printed n)) hverdict
  obtain ⟨-, -, hrecord⟩ := hrows _ _ _ _ hends
  obtain ⟨first, hfirst, htake⟩ := hrecord 0 _ (congrArg (·[0]?) hplan)
  obtain rfl : row = first := Option.some.inj hfirst
  obtain ⟨second, hsecond, htake'⟩ := hrecord 1 _ (congrArg (·[1]?) hplan)
  obtain rfl : row' = second := Option.some.inj hsecond
  exact ⟨hs, hplan, _, row, row', hends, htake, rfl, htake', rfl, (hfollows _ _ _ hends).2.2 rfl⟩

end Sweep

end BenchSweep
