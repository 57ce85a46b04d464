import BenchSweep.Proofs.Save.Places
import BenchSweep.Proofs.Save.Write

/-!
# A save is atomic

A save goes as far as the first step that fails: the creation of the temporary file, a delivery to
it, the sync, or the rename. Up to the rename the trees differ from the first one in the temporary
file only, which is never at the place of the path. The rename puts the whole text at the path, and
nothing comes after it.

## Why all trees are kept

A process that is killed leaves the tree as it is at that moment, so atomicity is not about the tree
at the end. `Trace` keeps every tree that a save has made, and `Atomic` says of each of them that
the entry at the path is the old one or the whole table. To be killed is then to stop at one of
these trees, and no crash has to be modelled.

## Why mishaps are a parameter

Every step may fail for reasons that lie outside, and a delivery may take some of its bytes before
it does. `Mishaps` says of each step whether it is made to fail, and the result is for all of them;
the leftovers are what still arrives after a failure, in any number. A step may also fail because of
the tree itself, for instance since a directory is missing, and `Passes` has both reasons.

## Scope

The tree is worked on by nobody else during a save. That a rename puts a file in place in one step
is what the system provides. If a directory stands at the temporary path nothing can be created
there, and it stays.

## Main definitions

* `Save.Course`: how far a save goes, with its trees.
* `Save.Passes`: no step of a save fails.

## Main results

* `Save.course_steps`: every save has its course.
* `Table.save_atomic`: at every moment, the entry at the path is the old one or the whole table.
-/

namespace BenchSweep

open Text (Bytes)

namespace Save

variable {m : Mishaps} {here : Location} {table : Table} {path : String} {d : Disk}

/-! ### The first step that fails -/

section Steps

variable {ε σ α β : Type} {x : EStateM ε σ α} {f : α → EStateM ε σ β} {s s' : σ}

theorem bind_of_ok {a : α} (h : x s = .ok a s') : (x >>= f) s = f a s' := by
  change EStateM.bind x f s = _
  rw [EStateM.bind, h]

theorem bind_of_error {e : ε} (h : x s = .error e s') : (x >>= f) s = .error e s' := by
  change EStateM.bind x f s = _
  rw [EStateM.bind, h]

end Steps

/-- A step is made to fail or fails by itself, and then nothing changes; or it gives the next
tree. -/
theorem step_cases {α : Type} (mishap : Option SystemError) (context : Context)
    (f : Disk → Except SystemError (α × Disk)) (t : Trace) :
    (∃ g, step mishap context f t = .error g t ∧ (mishap ≠ none ∨ ∃ e, f t.disk = .error e)) ∨
    ∃ a d', step mishap context f t = .ok a (t.push d') ∧ mishap = none ∧
      f t.disk = .ok (a, d') := by
  unfold step
  cases mishap with
  | some e => exact .inl ⟨_, rfl, .inl (Option.some_ne_none e)⟩
  | none =>
    cases hf : f t.disk with
    | error e => exact .inl ⟨_, rfl, .inr ⟨e, rfl⟩⟩
    | ok r => exact .inr ⟨r.1, r.2, rfl, rfl, rfl⟩

/-- How far a save goes. -/
inductive Course (m : Mishaps) (here : Location) (table : Table) (path : String) (d : Disk) :
    EStateM.Result Failure Trace Unit → Prop
  | notCreated {f : Failure}
      (h : m.create ≠ none ∨ ∃ e, d.create here (Path.temporary path) = .error e) :
      Course m here table path d (.error f { disk := d })
  | notWritten {f : Failure} {t : Trace} {l : Location} {d₁ : Disk}
      (hcreate : d.create here (Path.temporary path) = .ok (l, d₁)) (h : Broken m l d t) :
      Course m here table path d (.error f t)
  | notSynced {f : Failure} {t : Trace} {l : Location} {d₁ : Disk}
      (hcreate : d.create here (Path.temporary path) = .ok (l, d₁))
      (hwrite : Writing m l d d₁ table.text t) (hpending : t.pending = [])
      (h : m.sync ≠ none ∨ ∃ e, t.disk.sync l = .error e) :
      Course m here table path d (.error f t)
  | notRenamed {f : Failure} {t : Trace} {l : Location} {d₁ : Disk}
      (hcreate : d.create here (Path.temporary path) = .ok (l, d₁))
      (hwrite : Writing m l d d₁ table.text t) (hpending : t.pending = [])
      (h : m.rename ≠ none ∨ ∃ e, t.disk.rename here (Path.temporary path) path = .error e) :
      Course m here table path d (.error f t)
  | renamed {t : Trace} {l : Location} {d₁ d₂ : Disk} (hnone : m.create = none)
      (hcreate : d.create here (Path.temporary path) = .ok (l, d₁))
      (hwrite : Writing m l d d₁ table.text t) (hpending : t.pending = []) (hsync : m.sync = none)
      (hok : t.disk.sync l = .ok ()) (hrename : m.rename = none)
      (h : t.disk.rename here (Path.temporary path) path = .ok d₂) :
      Course m here table path d (.ok () (t.push d₂))

/-- Every save has its course. -/
theorem course_steps (m : Mishaps) (here : Location) (table : Table) (path : String) (d : Disk) :
    Course m here table path d (steps m here table path { disk := d }) := by
  unfold steps
  rcases step_cases m.create (.creating (Path.temporary path))
    (·.create here (Path.temporary path)) { disk := d } with
    ⟨f, hstep, hfail⟩ | ⟨l, d₁, hstep, hnone, hcreate⟩
  · rw [bind_of_error hstep]
    exact .notCreated hfail
  rw [bind_of_ok hstep]
  obtain ⟨-, hsame, hempty, -⟩ := Disk.create_eq_ok hcreate
  have hstart : Writing m l d d₁ [] (Trace.push { disk := d } d₁) := by
    refine ⟨?_, ⟨[], hempty.symm, rfl⟩, fun n hn => absurd hn (Nat.not_lt_zero n)⟩
    exact Trace.All.push (Trace.all_start (.refl hsame.isDirectory_eq)) hsame
  have hwrite := lands_write table hstart
  cases hr : write m l table (Trace.push { disk := d } d₁) with
  | error f t =>
    rw [hr] at hwrite
    rw [bind_of_error hr]
    exact .notWritten hcreate hwrite
  | ok _ t =>
  rw [hr] at hwrite
  obtain ⟨hwritten, hpending⟩ := hwrite
  rw [bind_of_ok hr]
  rcases step_cases m.sync .syncing (fun d => (d.sync l).map (·, d)) t with
    ⟨f, hstep, hfail⟩ | ⟨_, d', hstep, hsync, hd'⟩
  · rw [bind_of_error hstep]
    exact .notSynced hcreate hwritten hpending
      (hfail.imp_right fun ⟨e, he⟩ => ⟨e, eq_error_of_map he⟩)
  obtain ⟨_, hok, heq⟩ := exists_of_map_eq_ok hd'
  obtain ⟨-, rfl⟩ := Prod.mk.inj heq
  have hsynced : Writing m l d d₁ table.text (t.push t.disk) :=
    ⟨hwritten.all.push hwritten.all.disk, hwritten.exists_sent, hwritten.deliver_eq⟩
  rw [bind_of_ok hstep]
  rcases step_cases m.rename (.renaming (Path.temporary path) path)
    (fun d => (d.rename here (Path.temporary path) path).map ((), ·)) (t.push t.disk) with
    ⟨f, hstep, hfail⟩ | ⟨_, d₂, hstep, hrename, hd₂⟩
  · rw [hstep]
    exact .notRenamed hcreate hsynced hpending
      (hfail.imp_right fun ⟨e, he⟩ => ⟨e, eq_error_of_map he⟩)
  · obtain ⟨d', hd', heq⟩ := exists_of_map_eq_ok hd₂
    obtain ⟨-, rfl⟩ := Prod.mk.inj heq
    rw [hstep]
    exact .renamed hnone hcreate hsynced hpending hsync hok hrename hd'

/-- No step of a save fails: none is made to fail, and the tree admits them all. -/
structure Passes (m : Mishaps) (here : Location) (table : Table) (path : String) (d : Disk)
    (deliveries : Nat) : Prop where
  create : m.create = none
  deliver : ∀ n < deliveries, m.deliver n = none
  sync : m.sync = none
  rename : m.rename = none
  exists_disk : ∃ l d₁ d₂, d.create here (Path.temporary path) = .ok (l, d₁) ∧
    (d₁.append l table.text).sync l = .ok () ∧
    (d₁.append l table.text).rename here (Path.temporary path) path = .ok d₂

theorem Writing.disk_eq {l : Location} {d₁ : Disk} {done : Bytes} {t : Trace}
    (h : Writing m l d d₁ done t) (hpending : t.pending = []) : t.disk = d₁.append l done := by
  obtain ⟨sent, hdisk, hsent⟩ := h.exists_sent
  rw [hpending, List.append_nil] at hsent
  rw [hdisk, hsent]

/-! ### Trees before the rename -/

/-- A tree that differs from the first one at most in the temporary file. -/
structure Kept (here : Location) (path : String) (d d' : Disk) : Prop where
  sameDirectories : Disk.SameDirectories d d'
  get?_eq : ∀ l, d.resolve here (Path.temporary path) ≠ .ok l → d'.get? l = d.get? l

theorem kept_refl (here : Location) (path : String) (d : Disk) : Kept here path d d :=
  ⟨fun _ => rfl, fun _ _ => rfl⟩

theorem kept_of_sameBut {d' : Disk} {l : Location}
    (hl : d.resolve here (Path.temporary path) = .ok l) (h : Disk.SameBut l d d') :
    Kept here path d d' := by
  refine ⟨h.sameDirectories, fun l' hne => h.get?_eq l' ?_⟩
  rintro rfl
  exact hne hl

theorem Kept.sameBut {d' d'' : Disk} {l : Location} (h : Kept here path d d')
    (hl : d'.resolve here (Path.temporary path) = .ok l) (h' : Disk.SameBut l d' d'') :
    Kept here path d d'' := by
  refine ⟨h.sameDirectories.trans h'.sameDirectories, fun l' hne => ?_⟩
  refine (h'.get?_eq l' ?_).trans (h.get?_eq l' hne)
  rintro rfl
  exact hne (h.sameDirectories.resolve_eq_ok_iff.1 hl)

/-- The entry at the path is not that of the temporary file. -/
theorem Kept.node?_eq {d' : Disk} (h : Kept here path d d') :
    d'.node? here path = d.node? here path := by
  refine h.sameDirectories.node?_eq fun l hl => h.get?_eq l fun htemporary => ?_
  exact Disk.ne_of_resolve_temporary hl htemporary rfl

/-- After a temporary file was removed, there is none. -/
theorem clear_spec {t : Trace} (hall : t.All (Kept here path d)) :
    (clear here path t).All (Kept here path d) ∧ (clear here path t).deliveries = t.deliveries ∧
    (∀ node, (clear here path t).disk.node? here (Path.temporary path) = some node →
      node = .directory) ∧
    (d.node? here (Path.temporary path) = some .directory →
      (clear here path t).disk.node? here (Path.temporary path) = some .directory) := by
  have hkept := hall.disk
  have hstays : t.disk.node? here (Path.temporary path) = some .directory ↔
      d.node? here (Path.temporary path) = some .directory :=
    hkept.sameDirectories.node?_eq_directory_iff
  unfold clear
  rcases Disk.unlink_cases (d := t.disk) (Disk.endsInSlash_temporary path) with
    ⟨e, hunlink, hnode⟩ | ⟨l, hunlink, hl, hfile⟩
  · rw [hunlink]
    exact ⟨hall, rfl, hnode, hstays.2⟩
  · have hsame := Disk.sameBut_remove hfile
    have hgone : (t.disk.remove l).node? here (Path.temporary path) = none := by
      rw [Disk.node?_of_resolve (hsame.sameDirectories.resolve_eq_ok_iff.2 hl), Disk.get?_remove,
        if_pos rfl]
    rw [hunlink]
    refine ⟨hall.push (hkept.sameBut hl hsame), rfl, fun node hnode => ?_, fun hdirectory => ?_⟩
    · cases hgone.symm.trans hnode
    · have hnot := hstays.2 hdirectory
      rw [Disk.node?_of_resolve hl] at hnot
      simp [Disk.isDirectory, hnot] at hfile

/-! ### The whole save -/

/-- The value or the failure of a step, and the state after it. -/
def outcome {ε σ α : Type} : EStateM.Result ε σ α → Except ε α × σ
  | .ok a s => (.ok a, s)
  | .error e s => (.error e, s)

/-- What is atomic about a save with the outcome `r` and the trees `t`. -/
structure Atomic (m : Mishaps) (here : Location) (table : Table) (path : String) (d : Disk)
    (r : Except Failure Unit) (t : Trace) : Prop where
  /-- At every moment, the entry at the path is the old one or the whole table. -/
  entry_all : t.All fun d' => d'.node? here path = d.node? here path ∨
    d'.node? here path = some (.file table.text)
  ok_iff : r = .ok () ↔ Passes m here table path d t.deliveries
  entry_of_ok : r = .ok () → t.disk.node? here path = some (.file table.text)
  entry_of_error : ∀ f, r = .error f → t.disk.node? here path = d.node? here path
  /-- No other entry is ever changed. -/
  get?_all : t.All fun d' => ∀ l, d.resolve here path ≠ .ok l →
    d.resolve here (Path.temporary path) ≠ .ok l → d'.get? l = d.get? l
  /-- In the end there is nothing but a directory at the temporary path. -/
  temporary_eq : ∀ node, t.disk.node? here (Path.temporary path) = some node →
    node = .directory
  temporary_stays : d.node? here (Path.temporary path) = some .directory →
    t.disk.node? here (Path.temporary path) = some .directory

/-- A save that fails leaves nothing behind. -/
theorem atomic_of_error {f : Failure} {t : Trace} (hall : t.All (Kept here path d))
    (hnot : ¬ Passes m here table path d t.deliveries) :
    Atomic m here table path d (.error f) (clear here path t) := by
  obtain ⟨hall', hdeliveries, hnode, hstays⟩ := clear_spec hall
  constructor
  case entry_all => exact fun d' hd' => .inl (hall' d' hd').node?_eq
  case ok_iff =>
    rw [hdeliveries]
    exact ⟨fun h => (by cases h), fun h => absurd h hnot⟩
  case entry_of_ok => exact fun h => (by cases h)
  case entry_of_error => exact fun _ _ => hall'.disk.node?_eq
  case get?_all => exact fun d' hd' l _ hl => (hall' d' hd').get?_eq l hl
  case temporary_eq => exact hnode
  case temporary_stays => exact hstays

/-- A save that passes all steps puts the whole table at its path. -/
theorem atomic_of_renamed {t : Trace} {l : Location} {d₁ d₂ : Disk} (hnone : m.create = none)
    (hcreate : d.create here (Path.temporary path) = .ok (l, d₁))
    (hwrite : Writing m l d d₁ table.text t) (hpending : t.pending = []) (hsync : m.sync = none)
    (hok : t.disk.sync l = .ok ()) (hrename : m.rename = none)
    (h : t.disk.rename here (Path.temporary path) path = .ok d₂) :
    Atomic m here table path d (.ok ()) (t.push d₂) := by
  obtain ⟨hl, -, -, hfile⟩ := Disk.create_eq_ok hcreate
  have hdisk := hwrite.disk_eq hpending
  have hall : t.All (Kept here path d) := fun d' hd' => kept_of_sameBut hl (hwrite.all d' hd')
  have hkept := hall.disk
  obtain ⟨l₀, l', node, hl₀, hl', hnode, hnd, hld, hd₂⟩ := Disk.rename_eq_ok h
  obtain rfl : l = l₀ :=
    Except.ok.inj (hl.symm.trans (hkept.sameDirectories.resolve_eq_ok_iff.1 hl₀))
  have hpath := hkept.sameDirectories.resolve_eq_ok_iff.1 hl'
  have hne : l' ≠ l := Disk.ne_of_resolve_temporary hpath hl
  obtain rfl : node = .file table.text := by
    rw [hdisk] at hok hnode
    exact Option.some.inj (hnode.symm.trans (Disk.get?_append_of_sync hfile hok))
  subst hd₂
  have hremove := Disk.sameBut_remove (hwrite.all.disk).isDirectory_eq'
  have hput : Disk.SameBut l' (t.disk.remove l) ((t.disk.remove l).put l' (.file table.text)) := by
    refine Disk.sameBut_put ?_ (by simp)
    rw [hremove.sameDirectories l', hld]
  have hsame := (hkept.sameDirectories.trans hremove.sameDirectories).trans hput.sameDirectories
  have hentry : ((t.disk.remove l).put l' (.file table.text)).node? here path =
      some (.file table.text) := by
    rw [Disk.node?_of_resolve (hsame.resolve_eq_ok_iff.2 hpath), Disk.get?_put_self]
  have hgone : ((t.disk.remove l).put l' (.file table.text)).node? here (Path.temporary path) =
      none := by
    rw [Disk.node?_of_resolve (hsame.resolve_eq_ok_iff.2 hl), Disk.get?_put, if_neg hne.symm,
      Disk.get?_remove, if_pos rfl]
  constructor
  case entry_all =>
    exact Trace.All.push (fun d' hd' => .inl (hall d' hd').node?_eq) (.inr hentry)
  case ok_iff =>
    rw [hdisk] at hok h
    have hpass := Passes.mk hnone hwrite.deliver_eq hsync hrename ⟨l, d₁, _, hcreate, hok, h⟩
    exact ⟨fun _ => hpass, fun _ => rfl⟩
  case entry_of_ok => exact fun _ => hentry
  case entry_of_error => exact fun f hf => (by cases hf)
  case get?_all =>
    have hbefore : t.All fun d' => ∀ l, d.resolve here path ≠ .ok l →
        d.resolve here (Path.temporary path) ≠ .ok l → d'.get? l = d.get? l :=
      fun d' hd' l'' _ hl₂ => (hall d' hd').get?_eq l'' hl₂
    refine hbefore.push fun l'' hl₁ hl₂ => ?_
    have hne₁ : l'' ≠ l' := by
      rintro rfl
      exact hl₁ hpath
    have hne₂ : l'' ≠ l := by
      rintro rfl
      exact hl₂ hl
    rw [Disk.get?_put, if_neg hne₁, Disk.get?_remove, if_neg hne₂, hkept.get?_eq l'' hl₂]
  case temporary_eq => exact fun node hn => (by cases hgone.symm.trans hn)
  case temporary_stays =>
    intro hdirectory
    rw [Disk.node?_of_resolve hl] at hdirectory
    have hfile := hwrite.all.disk.isDirectory_eq
    simp [Disk.isDirectory, hdirectory] at hfile

/-- A save that has failed has changed the temporary file only, and some step of it has failed. -/
theorem Course.of_error {f : Failure} {t : Trace} (h : Course m here table path d (.error f t)) :
    t.All (Kept here path d) ∧ ¬ Passes m here table path d t.deliveries := by
  have hall {t : Trace} {l : Location} {d₁ : Disk}
      (hcreate : d.create here (Path.temporary path) = .ok (l, d₁))
      (ht : t.All (Disk.SameBut l d)) : t.All (Kept here path d) := fun d' hd' =>
    kept_of_sameBut (Disk.create_eq_ok hcreate).1 (ht d' hd')
  cases h with
  | notCreated h =>
    refine ⟨Trace.all_start (kept_refl here path d), fun hpass => ?_⟩
    obtain ⟨l, d₁, d₂, hcreate, -⟩ := hpass.exists_disk
    rcases h with hm | ⟨e, he⟩
    · exact hm hpass.create
    · cases he.symm.trans hcreate
  | notWritten hcreate h =>
    refine ⟨hall hcreate h.all, fun hpass => ?_⟩
    obtain ⟨n, hn, hm⟩ := h.exists_deliver
    exact hm (hpass.deliver n hn)
  | notSynced hcreate hwrite hpending h =>
    refine ⟨hall hcreate hwrite.all, fun hpass => ?_⟩
    obtain ⟨l, d₁, d₂, hcreate', hok, -⟩ := hpass.exists_disk
    obtain ⟨rfl, rfl⟩ := Prod.mk.inj (Except.ok.inj (hcreate.symm.trans hcreate'))
    rcases h with hm | ⟨e, he⟩
    · exact hm hpass.sync
    · rw [hwrite.disk_eq hpending] at he
      cases he.symm.trans hok
  | notRenamed hcreate hwrite hpending h =>
    refine ⟨hall hcreate hwrite.all, fun hpass => ?_⟩
    obtain ⟨l, d₁, d₂, hcreate', -, hd₂⟩ := hpass.exists_disk
    obtain ⟨rfl, rfl⟩ := Prod.mk.inj (Except.ok.inj (hcreate.symm.trans hcreate'))
    rcases h with hm | ⟨e, he⟩
    · exact hm hpass.rename
    · rw [hwrite.disk_eq hpending] at he
      cases he.symm.trans hd₂

/-- A save that has succeeded has passed all steps. -/
theorem Course.of_ok {t : Trace} (h : Course m here table path d (.ok () t)) :
    Atomic m here table path d (.ok ()) t := by
  cases h with
  | renamed hnone hcreate hwrite hpending hsync hok hrename h =>
    exact atomic_of_renamed hnone hcreate hwrite hpending hsync hok hrename h

end Save

open Save in
/-- **A save is atomic.** For every table, path and tree, and whichever steps are made to fail: at
every moment the entry at the path is the old one or the whole table. The save succeeds if and only
if no step fails, and then the table is there; otherwise the old entry is. No other entry is ever
changed, and in the end there is no temporary file. -/
theorem Table.save_atomic (m : Mishaps) (here : Location) (table : Table) (path : String)
    (d : Disk) :
    Atomic m here table path d (outcome (table.save m here path { disk := d })).1
      (outcome (table.save m here path { disk := d })).2 := by
  have hcourse := course_steps m here table path d
  unfold Table.save
  generalize steps m here table path { disk := d } = result at hcourse ⊢
  cases result with
  | ok _ t => exact hcourse.of_ok
  | error f t =>
    obtain ⟨hall, hnot⟩ := hcourse.of_error
    dsimp only [outcome]
    exact atomic_of_error hall hnot

end BenchSweep
