import BenchSweep.Proofs.Script.Acts
import Mathlib.Data.List.Basic

/-!
# The ledger of launched commands

The acts of a script say of a command that ended only its number among those in flight. The ledger
keeps the commands themselves: every command that was launched, in order, and what has become of it.

## Why the acts are not enough

A script waits for any one of the commands in flight, and the answer names it by its number among
these. This number changes its meaning with every command that ends. In the ledger each command has
a fixed place, that of its launch, and `Ledger.settle_append_cons` translates a number into a place.
Everything that is said of points and their commands is said by places.

## Why there is a fate

To compare sweeps that run the same commands in different orders, what becomes of each command is
fixed beforehand, by its place. A ledger agrees with a fate as long as nothing contrary has
happened. `Script.KeepsCount.exists_ends` is what makes this useful: a script that only waits while
something is in flight can always be continued in agreement with the fate, until it ends.

## Main definitions

* `Launch`, `Ledger`: a launched command and where it stands, and all of them.
* `Ledger.ofActs`: the ledger after some acts.
* `Fate`, `Ledger.Agrees`: what is to become of the commands, and a ledger that has kept to it.
* `Script.KeepsCount`: a script that waits only for commands that are in flight.

## Main results

* `Ledger.settle_append_cons`: the end of a command changes its own entry and no other.
* `Script.KeepsCount.exists_ends`: whatever the fate, such a script comes to an end along it.
-/

namespace BenchSweep

/-- Where a command stands that was launched. -/
inductive Stand where
  | refused (error : SystemError)
  | inFlight
  | ended (behaviour : Behaviour)
  | killed
  deriving DecidableEq

/-- A command that was launched, and where it stands. -/
structure Launch where
  command : Command
  limit : Option Duration
  stand : Stand
  deriving DecidableEq

/-- Whether a command that was launched is still in flight. -/
def Launch.isInFlight (l : Launch) : Bool :=
  l.stand = .inFlight

/-- The command is no longer in flight. -/
def Launch.kill (l : Launch) : Launch :=
  if l.isInFlight then { l with stand := .killed } else l

/-- All commands that were launched, in order. -/
abbrev Ledger := List Launch

namespace Ledger

/-- The number of commands in flight. -/
def inFlight (l : Ledger) : Nat :=
  l.countP Launch.isInFlight

/-- One of the commands in flight ends; they are counted from zero. -/
def settle : Nat → Behaviour → Ledger → Ledger
  | _, _, [] => []
  | 0, b, l :: later =>
    if l.isInFlight then { l with stand := .ended b } :: later else l :: settle 0 b later
  | n + 1, b, l :: later =>
    if l.isInFlight then l :: settle n b later else l :: settle (n + 1) b later

/-- The ledger after an act. -/
def record (l : Ledger) : Act → Ledger
  | .launched command limit none => l ++ [⟨command, limit, .inFlight⟩]
  | .launched command limit (some e) => l ++ [⟨command, limit, .refused e⟩]
  | .awaited n b => settle n b l
  | .cancelled => l.map Launch.kill
  | .told _ | .probed _ _ | .saved _ _ _ => l

/-- The ledger after some acts, the first ones of a script. -/
def ofActs (acts : List Act) : Ledger :=
  acts.foldl record []

theorem ofActs_append (acts more : List Act) :
    ofActs (acts ++ more) = more.foldl record (ofActs acts) :=
  List.foldl_append ..

theorem ofActs_concat (acts : List Act) (act : Act) :
    ofActs (acts ++ [act]) = record (ofActs acts) act :=
  ofActs_append acts [act]

/-- Events are not entered. -/
@[simp] theorem foldl_record_told (events : List Event) (l : Ledger) :
    (events.map .told).foldl record l = l := by
  induction events with
  | nil => rfl
  | cons event events ih => exact ih

@[simp] theorem inFlight_nil : inFlight [] = 0 := rfl

@[simp] theorem inFlight_append (l l' : Ledger) :
    inFlight (l ++ l') = inFlight l + inFlight l' :=
  List.countP_append ..

theorem inFlight_cons (launch : Launch) (l : Ledger) :
    inFlight (launch :: l) = inFlight l + if launch.isInFlight then 1 else 0 :=
  List.countP_cons ..

theorem isInFlight_kill (launch : Launch) : launch.kill.isInFlight = false := by
  unfold Launch.kill
  cases h : launch.isInFlight
  · simpa using h
  · rfl

/-- Nothing is in flight after all commands were killed. -/
theorem inFlight_map_kill (l : Ledger) : inFlight (l.map Launch.kill) = 0 := by
  rw [inFlight, List.countP_eq_zero]
  intro launch h
  obtain ⟨launch, -, rfl⟩ := List.mem_map.1 h
  simp [isInFlight_kill]

/-- The end of a command changes its own entry and no other. -/
theorem settle_append_cons {launch : Launch} (h : launch.isInFlight = true) (b : Behaviour)
    (before after : Ledger) :
    settle (inFlight before) b (before ++ launch :: after) =
      before ++ { launch with stand := .ended b } :: after := by
  induction before with
  | nil => simp [settle, h]
  | cons first before ih =>
    cases hf : first.isInFlight
    · have hn : inFlight (first :: before) = inFlight before := by simp [inFlight_cons, hf]
      rw [hn, List.cons_append, List.cons_append, ← ih]
      cases inFlight before <;> simp [settle, hf]
    · have hn : inFlight (first :: before) = inFlight before + 1 := by simp [inFlight_cons, hf]
      rw [hn, List.cons_append, List.cons_append, ← ih]
      simp [settle, hf]

/-- Every number below that of the commands in flight is the number of one of them. -/
theorem exists_of_lt_inFlight {n : Nat} {l : Ledger} (h : n < inFlight l) :
    ∃ before launch after, l = before ++ launch :: after ∧ launch.isInFlight = true ∧
      inFlight before = n := by
  induction l generalizing n with
  | nil => simp at h
  | cons first l ih =>
    cases hf : first.isInFlight
    · have hn : n < inFlight l := by simpa [inFlight_cons, hf] using h
      obtain ⟨before, launch, after, rfl, hl, rfl⟩ := ih hn
      exact ⟨first :: before, launch, after, rfl, hl, by simp [inFlight_cons, hf]⟩
    · cases n with
      | zero => exact ⟨[], first, l, rfl, hf, rfl⟩
      | succ n =>
        have hn : n < inFlight l := by simpa [inFlight_cons, hf] using h
        obtain ⟨before, launch, after, rfl, hl, rfl⟩ := ih hn
        exact ⟨first :: before, launch, after, rfl, hl, by simp [inFlight_cons, hf]⟩

/-- One command fewer is in flight when one of them has ended. -/
theorem inFlight_settle {n : Nat} {l : Ledger} (h : n < inFlight l) (b : Behaviour) :
    inFlight (settle n b l) + 1 = inFlight l := by
  obtain ⟨before, launch, after, rfl, hl, rfl⟩ := exists_of_lt_inFlight h
  have hended : ({ launch with stand := .ended b } : Launch).isInFlight = false := rfl
  rw [settle_append_cons hl]
  simp only [inFlight_append, inFlight_cons, hl, hended, if_true]
  simp
  omega

end Ledger

/-! ### Fates -/

/-- What is to become of the commands of a script, by the number of their launch: a command is
refused, or it starts and then behaves in some way. -/
abbrev Fate := Nat → Except SystemError Behaviour

/-- Where a command stands that has met its fate. -/
def Stand.ofFate : Except SystemError Behaviour → Stand
  | .error e => .refused e
  | .ok b => .ended b

/-- A command stands where its fate has it. -/
def Stand.Agrees : Stand → Except SystemError Behaviour → Prop
  | .refused e, fate => fate = .error e
  | .ended b, fate => fate = .ok b
  | .inFlight, fate | .killed, fate => ∃ b, fate = .ok b

@[simp] theorem Stand.agrees_ofFate_iff {fate fate' : Except SystemError Behaviour} :
    (Stand.ofFate fate).Agrees fate' ↔ fate' = fate := by
  cases fate <;> rfl

/-- All commands stand where their fates have them. -/
def Ledger.Agrees (l : Ledger) (fate : Fate) : Prop :=
  ∀ (n : Nat) (launch : Launch), l[n]? = some launch → launch.stand.Agrees (fate n)

namespace Ledger

theorem agrees_nil (fate : Fate) : Agrees [] fate := by
  intro n launch h
  simp at h

theorem Agrees.getElem {l : Ledger} {fate : Fate} (h : Agrees l fate) {before after : Ledger}
    {launch : Launch} (hl : l = before ++ launch :: after) :
    launch.stand.Agrees (fate before.length) := by
  refine h before.length launch ?_
  rw [hl, List.getElem?_append_right (Nat.le_refl _), Nat.sub_self]
  rfl

theorem Agrees.append {l : Ledger} {fate : Fate} (h : Agrees l fate) {launch : Launch}
    (hl : launch.stand.Agrees (fate l.length)) : Agrees (l ++ [launch]) fate := by
  intro n other hn
  rcases Nat.lt_or_ge n l.length with hlt | hge
  · rw [List.getElem?_append_left hlt] at hn
    exact h n other hn
  · rw [List.getElem?_append_right hge, List.getElem?_singleton] at hn
    split at hn
    · obtain rfl := Option.some.inj hn
      rwa [show n = l.length by omega]
    · cases hn

theorem Agrees.set {before after : Ledger} {launch launch' : Launch} {fate : Fate}
    (h : Agrees (before ++ launch :: after) fate)
    (hl : launch'.stand.Agrees (fate before.length)) :
    Agrees (before ++ launch' :: after) fate := by
  intro n other hn
  by_cases hb : n = before.length
  · subst hb
    rw [List.getElem?_append_right (Nat.le_refl _), Nat.sub_self] at hn
    obtain rfl := Option.some.inj hn
    exact hl
  · refine h n other ?_
    rw [← hn]
    rcases Nat.lt_or_ge n before.length with hlt | hge
    · rw [List.getElem?_append_left hlt, List.getElem?_append_left hlt]
    · rw [List.getElem?_append_right hge, List.getElem?_append_right hge,
        show n - before.length = n - before.length - 1 + 1 by omega]
      rfl

/-- A command in flight and a command that was killed agree with the same fates. -/
theorem agrees_map_kill_iff {l : Ledger} {fate : Fate} :
    Agrees (l.map Launch.kill) fate ↔ Agrees l fate := by
  have hkill (launch : Launch) (n : Nat) :
      launch.kill.stand.Agrees (fate n) ↔ launch.stand.Agrees (fate n) := by
    obtain ⟨command, limit, stand⟩ := launch
    cases stand <;> rfl
  constructor
  · intro h n launch hn
    refine (hkill launch n).1 (h n launch.kill ?_)
    rw [List.getElem?_map, hn]
    rfl
  · intro h n other hn
    rw [List.getElem?_map] at hn
    obtain ⟨launch, hl, rfl⟩ := Option.map_eq_some_iff.1 hn
    exact (hkill launch n).2 (h n launch hl)

end Ledger

/-! ### Scripts that wait for what is in flight -/

namespace Script

variable {α : Type}

/-- With some commands in flight at its start, a script waits only while commands are in flight, and
then says how many there are. -/
def KeepsCount : Nat → Script α → Prop
  | _, .done _ => True
  | n, .note _ next => next.KeepsCount n
  | n, .launch _ _ next => (∀ e, (next (some e)).KeepsCount n) ∧ (next none).KeepsCount (n + 1)
  | n, .await others next => n = others + 1 ∧ ∀ i b, (next i b).KeepsCount others
  | _, .cancel next => next.KeepsCount 0
  | n, .probe _ next => ∀ found, (next found).KeepsCount n
  | n, .save _ _ next => ∀ answer, (next answer).KeepsCount n

/-- A script that keeps count still does so in the middle of its acts. -/
theorem Reaches.keepsCount {s t : Script α} {acts : List Act} (h : s.Reaches acts t) {l : Ledger}
    (hs : s.KeepsCount (Ledger.inFlight l)) :
    t.KeepsCount (Ledger.inFlight (acts.foldl Ledger.record l)) := by
  induction h generalizing l with
  | refl => exact hs
  | note _ ih => exact ih hs
  | @launch command limit next t acts refusal _ ih =>
    refine @ih (Ledger.record l (.launched command limit refusal)) ?_
    cases refusal with
    | none => simpa [Ledger.record, Ledger.inFlight_cons, Launch.isInFlight] using hs.2
    | some e => simpa [Ledger.record, Ledger.inFlight_cons, Launch.isInFlight] using hs.1 e
  | @await others next t acts i b _ ih =>
    obtain ⟨hn, hnext⟩ := hs
    have hone := Ledger.inFlight_settle (n := i) (l := l) (by omega) b
    refine @ih (Ledger.record l (.awaited i b)) ?_
    rw [show Ledger.inFlight (Ledger.record l (.awaited i b)) = others by
      rw [Ledger.record]
      omega]
    exact hnext i b
  | cancel _ ih =>
    refine @ih (Ledger.record l .cancelled) ?_
    rw [Ledger.record, Ledger.inFlight_map_kill]
    exact hs
  | probe found _ ih => exact ih (hs found)
  | save answer _ ih => exact ih (hs answer)

/-- Whatever the fate of its commands, a script that keeps count comes to an end along it. -/
theorem KeepsCount.exists_ends {fate : Fate} {s : Script α} {acts : List Act}
    (hs : s.KeepsCount (Ledger.inFlight (Ledger.ofActs acts)))
    (ha : Ledger.Agrees (Ledger.ofActs acts) fate) :
    ∃ more a, s.Ends more a ∧ Ledger.Agrees (Ledger.ofActs (acts ++ more)) fate := by
  induction s generalizing acts with
  | done a => exact ⟨[], a, .refl _, by simpa using ha⟩
  | note event next ih =>
    have hr : Ledger.ofActs (acts ++ [.told event]) = Ledger.ofActs acts :=
      Ledger.ofActs_concat ..
    obtain ⟨more, a, h, hm⟩ := @ih (acts ++ [.told event]) (by rwa [hr]) (by rwa [hr])
    exact ⟨_, a, .note h, by simpa using hm⟩
  | launch command limit next ih =>
    cases hf : fate (Ledger.ofActs acts).length with
    | error e =>
      have hr : Ledger.ofActs (acts ++ [.launched command limit (some e)]) =
          Ledger.ofActs acts ++ [⟨command, limit, .refused e⟩] := Ledger.ofActs_concat ..
      obtain ⟨more, a, h, hm⟩ := @ih (some e) (acts ++ [.launched command limit (some e)])
        (by rw [hr]; simpa [Ledger.inFlight_cons, Launch.isInFlight] using hs.1 e)
        (by rw [hr]; exact ha.append hf)
      exact ⟨_, a, .launch _ h, by simpa using hm⟩
    | ok b =>
      have hr : Ledger.ofActs (acts ++ [.launched command limit none]) =
          Ledger.ofActs acts ++ [⟨command, limit, .inFlight⟩] := Ledger.ofActs_concat ..
      obtain ⟨more, a, h, hm⟩ := @ih none (acts ++ [.launched command limit none])
        (by rw [hr]; simpa [Ledger.inFlight_cons, Launch.isInFlight] using hs.2)
        (by rw [hr]; exact ha.append ⟨b, hf⟩)
      exact ⟨_, a, .launch _ h, by simpa using hm⟩
  | await others next ih =>
    obtain ⟨hn, hnext⟩ := hs
    -- the first command in flight is the one that ends
    obtain ⟨before, launch, after, hl, hfl, hz⟩ :=
      Ledger.exists_of_lt_inFlight (n := 0) (l := Ledger.ofActs acts) (by omega)
    have hst : launch.stand = .inFlight := by simpa [Launch.isInFlight] using hfl
    have hag := ha.getElem hl
    rw [hst] at hag
    obtain ⟨b, hb⟩ := hag
    have hr : Ledger.ofActs (acts ++ [.awaited 0 b]) =
        before ++ { launch with stand := .ended b } :: after := by
      rw [Ledger.ofActs_concat, hl, Ledger.record, ← hz, Ledger.settle_append_cons hfl]
    have hc : Ledger.inFlight (Ledger.ofActs (acts ++ [.awaited 0 b])) = others := by
      have hone := Ledger.inFlight_settle (n := 0) (l := Ledger.ofActs acts) (by omega) b
      rw [Ledger.ofActs_concat, Ledger.record]
      omega
    rw [hl] at ha
    obtain ⟨more, a, h, hm⟩ := @ih 0 b (acts ++ [.awaited 0 b]) (by rw [hc]; exact hnext 0 b)
      (by rw [hr]; exact ha.set hb)
    exact ⟨_, a, .await 0 b h, by simpa using hm⟩
  | cancel next ih =>
    have hr : Ledger.ofActs (acts ++ [.cancelled]) = (Ledger.ofActs acts).map Launch.kill :=
      Ledger.ofActs_concat ..
    obtain ⟨more, a, h, hm⟩ := @ih (acts ++ [.cancelled])
      (by rw [hr, Ledger.inFlight_map_kill]; exact hs)
      (by rw [hr]; exact Ledger.agrees_map_kill_iff.2 ha)
    exact ⟨_, a, .cancel h, by simpa using hm⟩
  | probe path next ih =>
    have hr : Ledger.ofActs (acts ++ [.probed path true]) = Ledger.ofActs acts :=
      Ledger.ofActs_concat ..
    obtain ⟨more, a, h, hm⟩ := @ih true (acts ++ [.probed path true])
      (by rw [hr]; exact hs true) (by rwa [hr])
    exact ⟨_, a, .probe true h, by simpa using hm⟩
  | save table path next ih =>
    have hr : Ledger.ofActs (acts ++ [.saved table path (.ok ())]) = Ledger.ofActs acts :=
      Ledger.ofActs_concat ..
    obtain ⟨more, a, h, hm⟩ := @ih (.ok ()) (acts ++ [.saved table path (.ok ())])
      (by rw [hr]; exact hs (.ok ())) (by rwa [hr])
    exact ⟨_, a, .save (.ok ()) h, by simpa using hm⟩

end Script

end BenchSweep
