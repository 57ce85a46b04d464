import BenchSweep.Proofs.Except
import BenchSweep.Proofs.Number.Order
import BenchSweep.Sweep

/-!
# What the check of a configuration accepts

The check looks at one condition after the other and reports the first that fails; of the ratios, it
reports the earliest that is not between zero and one.

## Why the first fault is a relation

A configuration can be wrong in several ways at once, and what is reported depends on the order in
which the conditions are looked at. `Config.FirstFault` has one constructor for each condition, with
those in front of it as hypotheses, so the order can be read off it. Since it is equivalent to the
report, there is at most one first fault.

## Ratios

The test of a ratio looks at its bits. Here a ratio is compared with zero and one as a number, by
`Binary64.IsLe`: the zeros of both signs are in the range, the infinities are not, and bits that are
no number are not comparable to anything. An empty list is no fault. A grid without points can be
swept.

## Main definitions

* `Config.IsValid`: all conditions hold.
* `Config.FirstFault`: the first condition that fails, as a fault.

## Main results

* `Config.check_eq_ok_iff`, `Config.check_eq_error_iff`: what the check accepts and reports.
* `Sweep.ofConfig_eq_ok_iff`, `Sweep.ofConfig_eq_error_iff`: so it is with the sweep.
-/

namespace BenchSweep

open Number (Binary64)

/-- A ratio that a benchmark can run with. -/
def Grid.IsRatio (r : Binary64) : Prop :=
  (Binary64.ofMagnitude false 0).IsLe r ∧ r.IsLe (Binary64.ofMagnitude false Binary64.one)

/-- A grid that a benchmark can run with. -/
structure Grid.IsValid (g : Grid) : Prop where
  servers : ∀ n ∈ g.servers, n ≠ 0
  clients : ∀ n ∈ g.clients, n ≠ 0
  ratios : ∀ r ∈ g.ratios, IsRatio r

/-- The first condition on a grid that fails, as a fault. -/
inductive Grid.FirstFault (g : Grid) : SweepFault → Prop
  | servers (h : 0 ∈ g.servers) : FirstFault g (.zeroCount .servers)
  | clients (hservers : 0 ∉ g.servers) (h : 0 ∈ g.clients) : FirstFault g (.zeroCount .clients)
  | ratio {before after : List Binary64} {r : Binary64} (hservers : 0 ∉ g.servers)
      (hclients : 0 ∉ g.clients) (hratios : g.ratios = before ++ r :: after)
      (hbefore : ∀ r' ∈ before, IsRatio r') (h : ¬ IsRatio r) : FirstFault g (.ratioOutOfRange r)

/-- A configuration that can be run. -/
structure Config.IsValid (c : Config) : Prop where
  benchmark : c.benchmark ≠ []
  build : ∀ step ∈ c.build, step ≠ []
  parallel : 1 ≤ c.parallel.toNat
  grid : c.grid.IsValid

/-- The first condition on a configuration that fails, as a fault. -/
inductive Config.FirstFault (c : Config) : SweepFault → Prop
  | benchmark (h : c.benchmark = []) : FirstFault c (.emptyCommand .benchmark)
  | build (hbench : c.benchmark ≠ []) (h : [] ∈ c.build) : FirstFault c (.emptyCommand .build)
  | parallel (hbench : c.benchmark ≠ []) (hbuild : [] ∉ c.build) (h : c.parallel = 0) :
      FirstFault c (.zeroCount .parallelism)
  | grid (hbench : c.benchmark ≠ []) (hbuild : [] ∉ c.build) (hpar : c.parallel ≠ 0)
      {fault : SweepFault} (h : c.grid.FirstFault fault) : FirstFault c fault

/-! ### Grids -/

namespace Grid

variable {g : Grid} {fault : SweepFault}

theorem isRatio_iff {r : Binary64} : IsRatio r ↔ r.inUnitInterval = true :=
  Binary64.inUnitInterval_iff.symm

/-- The ratio that the check finds is the earliest that is no ratio to run with. -/
theorem find?_ratios_eq_some_iff {r : Binary64} :
    (g.ratios.find? fun ratio => !ratio.inUnitInterval) = some r ↔
      ∃ before after, g.ratios = before ++ r :: after ∧ (∀ r' ∈ before, IsRatio r') ∧
        ¬ IsRatio r := by
  simp only [List.find?_eq_some_iff_append, isRatio_iff, Bool.not_eq_true', Bool.not_eq_false',
    Bool.not_eq_true]
  constructor
  · rintro ⟨hr, before, after, hratios, hbefore⟩
    exact ⟨before, after, hratios, hbefore, hr⟩
  · rintro ⟨before, after, hratios, hbefore, hr⟩
    exact ⟨hr, before, after, hratios, hbefore⟩

theorem check_eq_ok_iff : g.check = .ok () ↔ g.IsValid := by
  unfold check
  split
  next hservers => exact iff_of_false nofun fun h => h.servers 0 hservers rfl
  split
  next hclients => exact iff_of_false nofun fun h => h.clients 0 hclients rfl
  split
  next r hfind =>
    obtain ⟨before, after, hratios, -, hr⟩ := find?_ratios_eq_some_iff.1 hfind
    exact iff_of_false nofun fun h => hr (h.ratios r (by simp [hratios]))
  next hservers hclients _ hfind =>
    refine iff_of_true rfl ⟨?_, ?_, fun r hr => ?_⟩
    · rintro n hn rfl
      exact hservers hn
    · rintro n hn rfl
      exact hclients hn
    · simpa [isRatio_iff] using List.find?_eq_none.1 hfind r hr

/-- **The fault of a grid is the first one in it.** -/
theorem check_eq_error_iff : g.check = .error fault ↔ g.FirstFault fault := by
  constructor
  · unfold check
    intro h
    split at h
    next hservers =>
      cases h
      exact .servers hservers
    split at h
    next hservers hclients =>
      cases h
      exact .clients hservers hclients
    split at h
    next hservers hclients _ r hfind =>
      cases h
      obtain ⟨before, after, hratios, hbefore, hr⟩ := find?_ratios_eq_some_iff.1 hfind
      exact .ratio hservers hclients hratios hbefore hr
    next => cases h
  · intro h
    unfold check
    cases h with
    | servers h => rw [if_pos h]
    | clients hservers h => rw [if_neg hservers, if_pos h]
    | ratio hservers hclients hratios hbefore h =>
      rw [if_neg hservers, if_neg hclients,
        find?_ratios_eq_some_iff.2 ⟨_, _, hratios, hbefore, h⟩]

end Grid

/-! ### Configurations -/

namespace Config

variable {c : Config} {fault : SweepFault}

theorem check_eq_ok_iff : c.check = .ok () ↔ c.IsValid := by
  have hpos : 1 ≤ c.parallel.toNat ↔ c.parallel ≠ 0 := by
    rw [Nat.one_le_iff_ne_zero, not_iff_not, ← UInt64.toNat_inj]
    rfl
  have hsteps : (∀ step ∈ c.build, step ≠ []) ↔ [] ∉ c.build :=
    ⟨fun h hmem => h [] hmem rfl, fun h step hstep he => h (he ▸ hstep)⟩
  unfold check
  split
  next hbench => exact iff_of_false nofun fun h => h.benchmark hbench
  split
  next hbuild => exact iff_of_false nofun fun h => hsteps.1 h.build hbuild
  split
  next hpar => exact iff_of_false nofun fun h => hpos.1 h.parallel hpar
  next hbench hbuild hpar =>
    rw [Grid.check_eq_ok_iff]
    exact ⟨fun h => ⟨hbench, hsteps.2 hbuild, hpos.2 hpar, h⟩, IsValid.grid⟩

/-- **The fault of a configuration is the first one in it.** -/
theorem check_eq_error_iff : c.check = .error fault ↔ c.FirstFault fault := by
  constructor
  · unfold check
    intro h
    split at h
    next hbench =>
      cases h
      exact .benchmark hbench
    split at h
    next hbench hbuild =>
      cases h
      exact .build hbench hbuild
    split at h
    next hbench hbuild hpar =>
      cases h
      exact .parallel hbench hbuild hpar
    next hbench hbuild hpar => exact .grid hbench hbuild hpar (Grid.check_eq_error_iff.1 h)
  · intro h
    unfold check
    cases h with
    | benchmark h => rw [if_pos h]
    | build hbench h => rw [if_neg hbench, if_pos h]
    | parallel hbench hbuild h => rw [if_neg hbench, if_neg hbuild, if_pos h]
    | grid hbench hbuild hpar h =>
      rw [if_neg hbench, if_neg hbuild, if_neg hpar, Grid.check_eq_error_iff.2 h]

/-- Of a negative zero, no number, and two, the second is the first ratio that is out of range. -/
example :
    let ratios : List Binary64 := [⟨0x8000000000000000⟩, ⟨0x7FF8000000000000⟩, ⟨0x4000000000000000⟩]
    ({ grid := { Grid.default with ratios } } : Config).check =
      .error (.ratioOutOfRange ⟨0x7FF8000000000000⟩) := by
  decide

end Config

/-! ### Sweeps -/

namespace Sweep

variable {c : Config} {dir : String} {s : Sweep} {fault : SweepFault}

theorem ofConfig_eq_ok_iff : ofConfig c dir = .ok s ↔ c.IsValid ∧ s = ⟨c, c.workdir.getD dir⟩ := by
  rw [← Config.check_eq_ok_iff, ofConfig]
  cases c.check with
  | error fault => exact iff_of_false nofun fun h => nomatch h.1
  | ok _ => exact ⟨fun h => ⟨rfl, (Except.ok.inj h).symm⟩, fun h => congrArg Except.ok h.2.symm⟩

theorem ofConfig_eq_error_iff : ofConfig c dir = .error fault ↔ c.FirstFault fault := by
  rw [← Config.check_eq_error_iff, ofConfig]
  cases c.check with
  | error fault' =>
    exact ⟨fun h => congrArg _ (Except.error.inj h), fun h => congrArg _ (Except.error.inj h)⟩
  | ok _ => exact iff_of_false nofun nofun

end Sweep

end BenchSweep
