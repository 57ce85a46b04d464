import BenchSweep.Proofs.Save.Atomic
import BenchSweep.Proofs.Sweep.Phases

/-!
# Sweeps on machines

A machine answers the requests of a script from its tree of files and from what its commands do. So
what it does with a sweep is one of the runs of the sweep, and what is shown of all runs holds of
it; the tree that it is left with is the one that the acts of this run make.

## Scope

Nothing is said of what commands do: a machine runs them with a shell and some tools, and their
steps change the tree between the acts of the script in any way they like. What is said is what the
sweep itself adds to that. If it gives a table, the file of the results has its text, whatever stood
there; if it fails, it has left the entry there as the last command did.

## Why the acts are split at the save

The save is the last act that is more than the telling of an event, so the trees before it are those
of the commands and the trees after it are all the same. The entry at the path of the results is
therefore read off one save, and no induction over the acts in front of it is needed.

## Main results

* `Disk.changes_append_iff`: the trees of acts that are put together from two.
* `Disk.Change.node?_of_saved`, `Disk.Change.node?_of_unsaved`: the entry at the path of a save.
* `Sweep.run_on_machine`: what a machine does with a sweep.
-/

namespace BenchSweep

namespace Disk

variable {here : Location} {acts acts' : List Act} {d d' : Disk}

/-- The trees of acts that are put together from two. -/
theorem changes_append_iff :
    Changes here (acts ++ acts') d d' ↔ ∃ e, Changes here acts d e ∧ Changes here acts' e d' := by
  induction acts generalizing d with
  | nil =>
    constructor
    · exact fun h => ⟨d, .nil d, h⟩
    · rintro ⟨e, h, h'⟩
      cases h
      exact h'
  | cons act acts ih =>
    constructor
    · intro h
      cases h with
      | cons hact hlater =>
        obtain ⟨e, h, h'⟩ := ih.1 hlater
        exact ⟨e, .cons hact h, h'⟩
    · rintro ⟨e, h, h'⟩
      cases h with
      | cons hact hlater => exact .cons hact (ih.2 ⟨e, hlater, h'⟩)

/-- A save that succeeds leaves the text of the table at its path. -/
theorem Change.node?_of_saved {table : Table} {path : String}
    (h : Change here (.saved table path (.ok ())) d d') :
    d'.node? here path = some (.file table.text) := by
  cases h with
  | command h => cases h
  | saved m h =>
    have hcourse := Save.course_steps m here table path d
    unfold Table.save at h
    generalize Save.steps m here table path { disk := d } = result at hcourse h
    cases result with
    | ok _ t =>
      cases h
      exact hcourse.of_ok.entry_of_ok rfl
    | error f t => cases h

/-- A save that fails leaves what was at its path. -/
theorem Change.node?_of_unsaved {table : Table} {path : String} {f : Failure}
    (h : Change here (.saved table path (.error f)) d d') :
    d'.node? here path = d.node? here path := by
  cases h with
  | command h => cases h
  | unsaved m h =>
    have hcourse := Save.course_steps m here table path d
    unfold Table.save at h
    generalize Save.steps m here table path { disk := d } = result at hcourse h
    cases result with
    | ok _ t => cases h
    | error g t =>
      cases h
      obtain ⟨hall, hnot⟩ := hcourse.of_error
      exact (Save.atomic_of_error hall hnot).entry_of_error f rfl

end Disk

/-- Acts that end with a save, but for the telling of events, are split at the save. -/
theorem exists_split_at_save {acts before : List Act} {table : Table} {path : String}
    {answer : Except Failure Unit}
    (h : acts.filter Act.isExternal = before ++ [.saved table path answer]) :
    ∃ earlier later, acts = earlier ++ .saved table path answer :: later ∧
      earlier.filter Act.isExternal = before ∧ ∀ act ∈ later, act.isExternal = false := by
  obtain ⟨earlier, rest, rfl, hearlier, hrest⟩ := List.filter_eq_append_iff.1 h
  obtain ⟨quiet, later, rfl, hquiet, -, hlater⟩ := List.filter_eq_cons_iff.1 hrest
  refine ⟨earlier ++ quiet, later, by rw [List.append_assoc], ?_, fun act hact => ?_⟩
  · have hnone : quiet.filter Act.isExternal = [] :=
      List.filter_eq_nil_iff.2 fun act hact => hquiet act hact
    rw [List.filter_append, hearlier, hnone, List.append_nil]
  · exact Bool.eq_false_iff.2 (List.filter_eq_nil_iff.1 hlater act hact)

namespace Sweep

variable {s : Sweep}

/-- **What a machine does with a sweep** is one of its runs, with the trees of its acts. If it gives
a table, the file of the results has the text of the table. If it fails, the sweep has saved
nothing, or the save has left the entry of the results as it was after the last command. -/
theorem run_on_machine {c : Config} {dir : String} (hs : ofConfig c dir = .ok s)
    (here : Location) (progress : Progress) (m : Host.Machine) :
    ∃ acts r m', m.run here (s.run progress) = (r, m') ∧
      RunActs s progress (acts.filter Act.isExternal) r ∧
      Disk.Changes here acts m.disk m'.disk ∧
      (∀ table, r.2 = .ok table →
        m'.disk.node? here (Path.join s.dir c.output) = some (.file table.text)) ∧
      ∀ f, r.2 = .error f → (∀ act ∈ acts.filter Act.isExternal, act.isSave = false) ∨
        ∃ earlier later d, acts = earlier ++ later ∧ Disk.Changes here earlier m.disk d ∧
          (∀ act ∈ later, act.isCommand = false) ∧
          m'.disk.node? here (Path.join s.dir c.output) =
            d.node? here (Path.join s.dir c.output) := by
  obtain ⟨rfl, hbench, hbuild, hpar⟩ := of_ofConfig hs
  obtain ⟨acts, hends, hchanges⟩ := m.changes_run here
    ((⟨c, c.workdir.getD dir⟩ : Sweep).run progress)
  have hacts := runActs_of_ends hbench hbuild hpar hends
  -- nothing but the telling of events comes after the save
  have hsave {before : List Act} {table : Table} {path : String} {answer : Except Failure Unit}
      {d' : Disk} (h : acts.filter Act.isExternal = before ++ [.saved table path answer])
      (hd : Disk.Changes here acts m.disk d') :
      ∃ earlier later d, acts = earlier ++ .saved table path answer :: later ∧
        (∀ act ∈ later, act.isExternal = false) ∧ Disk.Changes here earlier m.disk d ∧
        Disk.Change here (.saved table path answer) d d' := by
    obtain ⟨earlier, later, rfl, -, hlater⟩ := exists_split_at_save h
    obtain ⟨d, hearlier, hrest⟩ := Disk.changes_append_iff.1 hd
    cases hrest with
    | cons hchange hquiet =>
      have hsame := hquiet.eq_of_quiet fun act hact => by
        have := hlater act hact
        cases act <;> first | exact ⟨rfl, rfl⟩ | cases this
      exact ⟨earlier, later, d, rfl, hlater, hearlier, hsame ▸ hchange⟩
  refine ⟨acts, _, _, rfl, hacts, hchanges, fun table htable => ?_, fun f hf => ?_⟩
  · rcases hacts.save_or_not with ⟨⟨f, hf⟩, -⟩ | ⟨before, saved, answer, he, -, -, hr⟩
    · cases hf.symm.trans htable
    · cases answer with
      | error f => cases hr.symm.trans htable
      | ok _ =>
        cases hr.symm.trans htable
        obtain ⟨earlier, later, d, -, -, -, hchange⟩ := hsave he hchanges
        exact hchange.node?_of_saved
  · rcases hacts.save_or_not with ⟨-, hquiet⟩ | ⟨before, saved, answer, he, -, -, hr⟩
    · exact .inl hquiet
    · cases answer with
      | ok _ => cases hr.symm.trans hf
      | error g =>
        obtain ⟨earlier, later, d, hsplit, hlater, hearlier, hchange⟩ := hsave he hchanges
        refine .inr ⟨earlier, _, d, hsplit, hearlier, fun act hact => ?_, hchange.node?_of_unsaved⟩
        rcases List.mem_cons.1 hact with rfl | hmem
        · rfl
        · have := hlater act hmem
          cases act <;> first | rfl | cases this

end Sweep

end BenchSweep
