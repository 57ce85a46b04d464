import BenchSweep.Proofs.Window.Moves

/-!
# The run of a window is a sequence of moves

`Window.run` keeps the window in its recursion. Here its equations are read off, one for each shape
of the refilled window, and from them that the acts of a run are those of moves, up to the end of
the window.

## Why there are equations

`Window.run` looks at the window after it has been refilled, and there are five shapes of it:
nothing is left, the front has failed, the front has a row, some point waits, or a run is awaited.
Its definition is a nest of matches that would be opened in every proof. The equations name the
shapes, and after them the recursion is by the functional induction on the same five cases.

## Scope

The bound has to be above zero, because a window without room is not refilled. A command may run for
ever, which is no contradiction to the recursion: it goes from one answer to the next, and less work
is left after each.

## Main results

* `Window.steps_refill`: to refill is to take points.
* `Window.course_of_ends_run`: every run is a sequence of moves and an end.
* `Window.keepsCount_run`: a run waits only for commands that are in flight.
-/

namespace BenchSweep

/-! ### Looking for slots -/

theorem not_mem_of_splitWaiting {slots before after : List Slot} {p : Point}
    (h : splitWaiting slots = some (before, p, after)) : ∀ q, .waiting q ∉ before := by
  fun_induction splitWaiting slots generalizing before with
  | case1 => simp at h
  | case2 q later =>
    obtain ⟨rfl, -, -⟩ : [] = before ∧ q = p ∧ later = after := by simpa using h
    simp
  | case3 slot later hslot ih =>
    obtain ⟨⟨b, q, a⟩, hs, he⟩ := Option.map_eq_some_iff.1 h
    simp only [Prod.mk.injEq] at he
    obtain ⟨rfl, rfl, rfl⟩ := he
    intro q hq
    rcases List.mem_cons.1 hq with rfl | hq
    · exact hslot q rfl
    · exact ih hs q hq

theorem not_mem_of_splitWaiting_eq_none {slots : List Slot} (h : splitWaiting slots = none) :
    ∀ q, .waiting q ∉ slots := by
  fun_induction splitWaiting slots with
  | case1 => simp
  | case2 q later => simp at h
  | case3 slot later hslot ih =>
    intro q hq
    rcases List.mem_cons.1 hq with rfl | hq
    · exact hslot q rfl
    · exact ih (Option.map_eq_none_iff.1 h) q hq

/-- The arm of `splitRunning` that passes a slot over is for slots that do not run. -/
theorem isRunning_eq_false {n : Nat} {slot : Slot} (hzero : ∀ p, n = 0 → slot = .running p → False)
    (hsucc : ∀ m p, n = m + 1 → slot = .running p → False) : slot.isRunning = false := by
  cases slot with
  | running p =>
    cases n with
    | zero => exact (hzero p rfl rfl).elim
    | succ m => exact (hsucc m p rfl rfl).elim
  | waiting p => rfl
  | settled p o => rfl

theorem countP_of_splitRunning {n : Nat} {slots before after : List Slot} {p : Point}
    (h : splitRunning n slots = some (before, p, after)) : before.countP Slot.isRunning = n := by
  fun_induction splitRunning n slots generalizing before with
  | case1 => simp at h
  | case2 q later =>
    obtain ⟨rfl, -, -⟩ : [] = before ∧ q = p ∧ later = after := by simpa using h
    rfl
  | case3 n q later ih =>
    obtain ⟨⟨b, r, a⟩, hs, he⟩ := Option.map_eq_some_iff.1 h
    simp only [Prod.mk.injEq] at he
    obtain ⟨rfl, rfl, rfl⟩ := he
    rw [List.countP_cons_of_pos rfl, ih hs]
  | case4 n slot later hzero hsucc ih =>
    obtain ⟨⟨b, r, a⟩, hs, he⟩ := Option.map_eq_some_iff.1 h
    simp only [Prod.mk.injEq] at he
    obtain ⟨rfl, rfl, rfl⟩ := he
    have hr : slot.isRunning = false := isRunning_eq_false hzero hsucc
    rw [List.countP_cons_of_neg (by simp [hr]), ih hs]

theorem splitRunning_ne_none {n : Nat} {slots : List Slot}
    (h : n < slots.countP Slot.isRunning) : splitRunning n slots ≠ none := by
  fun_induction splitRunning n slots with
  | case1 => simp at h
  | case2 q later => simp
  | case3 n q later ih =>
    rw [List.countP_cons_of_pos rfl] at h
    simpa using ih (by omega)
  | case4 n slot later hzero hsucc ih =>
    have hr : slot.isRunning = false := isRunning_eq_false hzero hsucc
    rw [List.countP_cons_of_neg (by simp [hr])] at h
    simpa using ih h

namespace Window

variable {c : Config} {dir : String} {limit : Nat} {w : Window} {table : Table}
  {progress : Progress} {rest : List Point}

theorem run_of_nil (hf : w.refill limit = ⟨table, progress, [], rest⟩) :
    run c dir limit w =
      if rest = [] then .done (progress.finish, .ok table)
      else .done (progress, .error (.of .neverEnds)) := by
  rw [run]
  split <;> simp_all

theorem run_of_failed {p : Point} {f : Failure} {later : List Slot}
    (hf : w.refill limit = ⟨table, progress, .settled p (.error f) :: later, rest⟩) :
    run c dir limit w = .cancel (.done (progress, .error f)) := by
  rw [run]
  split <;> simp_all

theorem run_of_row {p : Point} {row : Row} {later : List Slot}
    (hf : w.refill limit = ⟨table, progress, .settled p (.ok row) :: later, rest⟩) :
    run c dir limit w = .note ⟨.info, .sweep, row.text⟩
      (run c dir limit ⟨table.push row, progress.advance, later, rest⟩) := by
  rw [run]
  split <;> simp_all

theorem run_of_waiting {slot : Slot} {later before after : List Slot} {p : Point}
    (hslot : ∀ q o, slot ≠ .settled q o)
    (hf : w.refill limit = ⟨table, progress, slot :: later, rest⟩)
    (hw : splitWaiting (slot :: later) = some (before, p, after)) :
    run c dir limit w = (startAt c dir p).run.bind fun started =>
      run c dir limit ⟨table, progress, before ++ startedSlot p started :: after, rest⟩ := by
  rw [run]
  split
  next heq => cases hf.symm.trans heq
  next heq =>
    cases hf.symm.trans heq
    exact (hslot _ _ rfl).elim
  next heq =>
    cases hf.symm.trans heq
    exact (hslot _ _ rfl).elim
  next heq =>
    cases hf.symm.trans heq
    split
    next hsome =>
      cases hw.symm.trans hsome
      rfl
    next hnone => cases hw.symm.trans hnone

theorem run_of_running {slot : Slot} {later : List Slot} (hslot : ∀ q o, slot ≠ .settled q o)
    (hf : w.refill limit = ⟨table, progress, slot :: later, rest⟩)
    (hw : splitWaiting (slot :: later) = none) :
    run c dir limit w = .await (later.countP Slot.isRunning) fun i b =>
      match splitRunning i (slot :: later) with
      | none => .done (progress, .error (.of .neverEnds))
      | some (before, p, after) =>
        tellAll (eventsAt p b)
          (run c dir limit
            ⟨table, progress, before ++ .settled p (settleAt c p b) :: after, rest⟩) := by
  rw [run]
  split
  next heq => cases hf.symm.trans heq
  next heq =>
    cases hf.symm.trans heq
    exact (hslot _ _ rfl).elim
  next heq =>
    cases hf.symm.trans heq
    exact (hslot _ _ rfl).elim
  next heq =>
    cases hf.symm.trans heq
    split
    next hsome => cases hw.symm.trans hsome
    next hnone =>
      congr 1
      funext i b
      split
      next hn => rw [hn]
      next hs => rw [hs]

/-! ### The run as moves -/

/-- To refill a window is to take points. -/
theorem steps_refill (c : Config) (dir : String) (limit : Nat) (w : Window) :
    Steps c dir limit w [] (w.refill limit) := by
  obtain ⟨table, progress, slots, rest⟩ := w
  induction rest generalizing slots with
  | nil =>
    rw [show refill limit ⟨table, progress, slots, []⟩ = ⟨table, progress, slots, []⟩ by
      simp [refill]]
    exact .refl _
  | cons p rest ih =>
    by_cases hroom : slots.length < limit
    · have hr : refill limit ⟨table, progress, slots, p :: rest⟩ =
          refill limit ⟨table, progress, slots ++ [.waiting p], rest⟩ := by
        obtain ⟨k, hk⟩ : ∃ k, limit - slots.length = k + 1 := ⟨limit - slots.length - 1, by omega⟩
        have hk' : limit - (slots.length + 1) = k := by omega
        simp [refill, hk, hk']
      rw [hr]
      exact Steps.head (.take hroom rfl) (ih _)
    · have hz : limit - slots.length = 0 := by omega
      rw [show refill limit ⟨table, progress, slots, p :: rest⟩ =
        ⟨table, progress, slots, p :: rest⟩ by simp [refill, hz]]
      exact .refl _

theorem rest_eq_nil_of_refill (hlimit : 0 < limit)
    (hf : w.refill limit = ⟨table, progress, [], rest⟩) : rest = [] := by
  simp only [refill, mk.injEq, List.append_eq_nil_iff, List.map_eq_nil_iff] at hf
  obtain ⟨-, -, ⟨hs, ht⟩, rfl⟩ := hf
  rw [hs, List.length_nil, Nat.sub_zero, List.take_eq_nil_iff] at ht
  rcases ht with ht | ht
  · omega
  · rw [ht, List.drop_nil]

/-- The last arms of `run` are for slots that are not settled. -/
theorem ne_settled {slot : Slot} (hfailed : ∀ p f, slot = .settled p (.error f) → False)
    (hrow : ∀ p row, slot = .settled p (.ok row) → False) : ∀ p o, slot ≠ .settled p o := by
  rintro p (f | row) rfl
  · exact hfailed p f rfl
  · exact hrow p row rfl

/-- When nothing waits and the first slot is not settled, as many commands are awaited as run. -/
theorem countP_isRunning_of_ne_settled {slot : Slot} {later : List Slot}
    (hslot : ∀ q o, slot ≠ .settled q o) (hw : splitWaiting (slot :: later) = none) :
    (slot :: later).countP Slot.isRunning = later.countP Slot.isRunning + 1 := by
  cases slot with
  | waiting q => exact absurd List.mem_cons_self (not_mem_of_splitWaiting_eq_none hw q)
  | running q => exact List.countP_cons_of_pos rfl
  | settled q o => exact (hslot q o rfl).elim

/-- The acts of a run are those of moves, up to the end of the window. -/
def Course (c : Config) (dir : String) (limit : Nat) (w : Window) (acts : List Act)
    (r : Progress × Except Failure Table) : Prop :=
  ∃ acts₁ acts₂ w', acts = acts₁ ++ acts₂ ∧ Steps c dir limit w acts₁ w' ∧ Stops w' acts₂ r

theorem Course.of_steps {w' : Window} {acts more : List Act} {r : Progress × Except Failure Table}
    (h : Steps c dir limit w acts w') (hc : Course c dir limit w' more r) :
    Course c dir limit w (acts ++ more) r := by
  obtain ⟨acts₁, acts₂, w'', rfl, hs, hr⟩ := hc
  exact ⟨acts ++ acts₁, acts₂, w'', by simp, h.trans hs, hr⟩

theorem Course.of_step {w' : Window} {acts more : List Act} {r : Progress × Except Failure Table}
    (h : Step c dir limit w acts w') (hc : Course c dir limit w' more r) :
    Course c dir limit w (acts ++ more) r :=
  hc.of_steps (by simpa using Steps.head h (.refl _))

/-- **Every run is a sequence of moves and an end.** -/
theorem course_of_ends_run (hlimit : 0 < limit) {acts : List Act}
    {r : Progress × Except Failure Table} (h : (run c dir limit w).Ends acts r) :
    Course c dir limit w acts r := by
  suffices hv : Course c dir limit (w.refill limit) acts r from
    hv.of_steps (steps_refill c dir limit w)
  induction w using run.induct c limit generalizing acts with
  | case1 w table progress hf =>
    rw [run_of_nil hf, if_pos rfl] at h
    obtain ⟨rfl, rfl⟩ := Script.ends_done_iff.1 h
    rw [hf]
    exact ⟨[], [], _, rfl, .refl _, .finish rfl rfl⟩
  | case2 w table progress rest hf hrest => exact absurd (rest_eq_nil_of_refill hlimit hf) hrest
  | case3 w table progress p f later rest hf =>
    rw [run_of_failed hf] at h
    obtain ⟨acts, rfl, hdone⟩ := Script.ends_cancel_iff.1 h
    obtain ⟨rfl, rfl⟩ := Script.ends_done_iff.1 hdone
    rw [hf]
    exact ⟨[], _, _, rfl, .refl _, .fail rfl⟩
  | case4 w table progress p row later rest hf ih =>
    rw [run_of_row hf] at h
    obtain ⟨acts, rfl, hnext⟩ := Script.ends_note_iff.1 h
    rw [hf]
    exact Course.of_step (.read rfl) (.of_steps (steps_refill ..) (ih hnext))
  | case5 w table progress slot later rest hfailed hrow hf before p after hw ih =>
    have hslot := ne_settled hfailed hrow
    rw [run_of_waiting hslot hf hw] at h
    obtain ⟨started, acts₁, acts₂, rfl, hstart, hnext⟩ := Script.ends_bind_iff.1 h
    rw [hf]
    exact .of_step (.start (eq_of_splitWaiting hw) (not_mem_of_splitWaiting hw) hstart)
      (.of_steps (steps_refill ..) (ih started hnext))
  | case6 w table progress slot later rest hfailed hrow hf hw ih =>
    have hslot := ne_settled hfailed hrow
    rw [run_of_running hslot hf hw] at h
    obtain ⟨i, b, acts, rfl, hnext⟩ := Script.ends_await_iff.1 h
    have hcount := countP_isRunning_of_ne_settled hslot hw
    obtain ⟨⟨before, p, after⟩, hr⟩ := Option.ne_none_iff_exists'.1
      (@splitRunning_ne_none i (slot :: later) (by omega))
    rw [hr] at hnext
    obtain ⟨acts, rfl, hafter⟩ := Script.ends_tellAll_iff.1 hnext
    rw [hf, ← countP_of_splitRunning hr]
    exact .of_step (.settle b (eq_of_splitRunning hr))
      (.of_steps (steps_refill ..) (ih i b before p after hr hafter))

/-! ### The commands in flight -/

theorem countP_isRunning_refill (limit : Nat) (w : Window) :
    (w.refill limit).slots.countP Slot.isRunning = w.slots.countP Slot.isRunning := by
  have hw : ∀ points : List Point, (points.map Slot.waiting).countP Slot.isRunning = 0 := by
    intro points
    rw [List.countP_eq_zero]
    intro slot h
    obtain ⟨p, -, rfl⟩ := List.mem_map.1 h
    simp [Slot.isRunning]
  simp only [refill, List.countP_append, hw, Nat.add_zero]

theorem keepsCount_tellAll {α : Type} {n : Nat} {next : Script α} (events : List Event)
    (h : next.KeepsCount n) : (tellAll events next).KeepsCount n := by
  induction events with
  | nil => exact h
  | cons event events ih => exact ih

/-- A run waits only for commands that are in flight, which are those of its running slots. -/
theorem keepsCount_run (hc : c.benchmark ≠ []) (w : Window) :
    (run c dir limit w).KeepsCount (w.slots.countP Slot.isRunning) := by
  rw [← countP_isRunning_refill limit]
  induction w using run.induct c limit with
  | case1 w table progress hf =>
    rw [run_of_nil hf, if_pos rfl]
    trivial
  | case2 w table progress rest hf hrest =>
    rw [run_of_nil hf, if_neg hrest]
    trivial
  | case3 w table progress p f later rest hf =>
    rw [run_of_failed hf]
    trivial
  | case4 w table progress p row later rest hf ih =>
    rw [countP_isRunning_refill] at ih
    rw [run_of_row hf, hf]
    exact ih
  | case5 w table progress slot later rest hfailed hrow hf before p after hw ih =>
    have hslot := ne_settled hfailed hrow
    simp only [countP_isRunning_refill] at ih
    rw [run_of_waiting hslot hf hw, startAt_run hc, hf, eq_of_splitWaiting hw]
    refine ⟨fun e => ?_, ?_⟩
    · have h := ih (startedAs p (some e))
      simp only [startedAs, startedSlot, List.countP_append, List.countP_cons,
        Slot.isRunning] at h ⊢
      exact h
    · have h := ih (startedAs p none)
      simp only [startedAs, startedSlot, List.countP_append, List.countP_cons,
        Slot.isRunning] at h ⊢
      simpa [Script.bind, Nat.add_assoc] using h
  | case6 w table progress slot later rest hfailed hrow hf hw ih =>
    have hslot := ne_settled hfailed hrow
    simp only [countP_isRunning_refill] at ih
    have hcount := countP_isRunning_of_ne_settled hslot hw
    rw [run_of_running hslot hf hw, hf]
    refine ⟨hcount, fun i b => ?_⟩
    dsimp only
    split
    · trivial
    next before p after hr =>
      refine keepsCount_tellAll _ ?_
      have h := ih i b before p after hr
      rw [eq_of_splitRunning hr] at hcount
      simp only [List.countP_append, List.countP_cons, Slot.isRunning] at h hcount
      have hlater : later.countP Slot.isRunning =
          before.countP Slot.isRunning + after.countP Slot.isRunning := by
        simp at hcount
        omega
      rw [hlater]
      simpa using h

end Window

end BenchSweep
