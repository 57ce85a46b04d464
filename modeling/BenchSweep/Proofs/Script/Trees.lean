import BenchSweep.Host.Machine
import BenchSweep.Proofs.Script.Acts

/-!
# Trees along the acts of a script

The acts of a script meet a tree of files. Telling of an event leaves the tree as it is, and so does
the question whether a path exists, whose answer is read off the tree. Commands may change anything:
they run between the acts that start, await and kill them. A save changes the tree as `Table.save`
does, and any of its steps may be made to fail.

## Why commands may change anything

The commands that a sweep runs are programs of the user. Nothing could be assumed of what they do to
the files, so their acts relate any two trees. That is more than a command would do and never less,
so what is shown to stay does stay. What a sweep does by itself is then visible in the other acts:
there are saves, and there are acts that leave the tree as it is. What is said of a sweep and its
files is therefore about the acts between two commands, or about the last save.

## Main definitions

* `Disk.Change`, `Disk.Changes`: what one act and what some acts make of a tree.

## Main results

* `Disk.Changes.eq_of_quiet`: only commands and saves change a tree.
* `Host.Machine.changes_run`: what a machine does with a script is of this kind.
-/

namespace BenchSweep

namespace Disk

/-- What an act makes of a tree. -/
inductive Change (here : Location) : Act → Disk → Disk → Prop
  | told (event : Event) (d : Disk) : Change here (.told event) d d
  | probed (path : String) (d : Disk) : Change here (.probed path (d.exists? here path)) d d
  | command {act : Act} (h : act.isCommand = true) (d d' : Disk) : Change here act d d'
  | saved {table : Table} {path : String} {d : Disk} {t : Trace} (m : Mishaps)
      (h : table.save m here path { disk := d } = .ok () t) :
      Change here (.saved table path (.ok ())) d t.disk
  | unsaved {table : Table} {path : String} {d : Disk} {f : Failure} {t : Trace} (m : Mishaps)
      (h : table.save m here path { disk := d } = .error f t) :
      Change here (.saved table path (.error f)) d t.disk

/-- What some acts make of a tree, one after the other. -/
inductive Changes (here : Location) : List Act → Disk → Disk → Prop
  | nil (d : Disk) : Changes here [] d d
  | cons {act : Act} {acts : List Act} {d d' d'' : Disk} (h : Change here act d d')
      (h' : Changes here acts d' d'') : Changes here (act :: acts) d d''

variable {here : Location} {acts : List Act} {d d' : Disk}

theorem Change.eq_of_quiet {act : Act} (h : Change here act d d') (hc : act.isCommand = false)
    (hs : act.isSave = false) : d' = d := by
  cases h with
  | told | probed => rfl
  | command h => exact absurd (hc.symm.trans h) Bool.false_ne_true
  | saved | unsaved => cases hs

/-- Only commands and saves change a tree. -/
theorem Changes.eq_of_quiet (h : Changes here acts d d')
    (hquiet : ∀ act ∈ acts, act.isCommand = false ∧ act.isSave = false) : d' = d := by
  induction h with
  | nil => rfl
  | cons hact _ ih =>
    obtain ⟨hc, hs⟩ := hquiet _ List.mem_cons_self
    rw [ih fun act h => hquiet act (List.mem_cons_of_mem _ h), hact.eq_of_quiet hc hs]

/-- A save where no step is made to fail. -/
theorem change_saveOn (table : Table) (here : Location) (path : String) (d : Disk) :
    Change here (.saved table path (table.saveOn here path d).1) d
      (table.saveOn here path d).2 := by
  unfold Table.saveOn
  generalize h : table.save {} here path { disk := d } = r
  cases r with
  | ok _ t => exact .saved {} h
  | error f t => exact .unsaved {} h

end Disk

/-- What a machine does with a script is among its acts, with the trees that belong to them. -/
theorem Host.Machine.changes_run {α : Type} (here : Location) (s : Script α) (m : Machine) :
    ∃ acts, s.Ends acts (m.run here s).1 ∧ Disk.Changes here acts m.disk (m.run here s).2.disk := by
  induction s generalizing m with
  | done a => exact ⟨[], .refl _, .nil _⟩
  | note event next ih =>
    obtain ⟨acts, h, hd⟩ := ih { m with events := event :: m.events }
    exact ⟨_, .note h, .cons (.told event m.disk) hd⟩
  | launch command limit next ih =>
    obtain ⟨acts, h, hd⟩ := ih (m.launch here command limit).1 (m.launch here command limit).2
    exact ⟨_, .launch _ h, .cons (.command rfl _ _) hd⟩
  | await others next ih =>
    obtain ⟨acts, h, hd⟩ := ih (Fin.ofNat (others + 1) m.await.1) m.await.2.1 m.await.2.2
    exact ⟨_, .await _ _ h, .cons (.command rfl _ _) hd⟩
  | cancel next ih =>
    obtain ⟨acts, h, hd⟩ := ih { m with tasks := [] }
    exact ⟨_, .cancel h, .cons (.command rfl _ _) hd⟩
  | probe path next ih =>
    obtain ⟨acts, h, hd⟩ := ih (m.disk.exists? here path) m
    exact ⟨_, .probe _ h, .cons (.probed path m.disk) hd⟩
  | save table path next ih =>
    have hchange := Disk.change_saveOn table here path m.disk
    rw [run]
    generalize table.saveOn here path m.disk = saved at hchange ⊢
    obtain ⟨acts, h, hd⟩ := ih saved.1 { m with disk := saved.2 }
    exact ⟨_, .save _ h, .cons hchange hd⟩

end BenchSweep
