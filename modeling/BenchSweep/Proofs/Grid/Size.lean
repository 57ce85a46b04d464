import BenchSweep.Proofs.Config.Check
import BenchSweep.Proofs.Grid.Points

/-!
# The size of a grid

The size is a product of sixty-four bits. A grid is not refused for the lengths of its lists, so the
product may wrap: then the size is too small, down to zero for a grid that has points. Where no
product is past the bound, the size is the number of points, and so is what is made of it.

## Where the size is used

Three things are made of the size: the test whether there is anything to sweep, the line that is
told at the start, and the length of the counter of progress. The points themselves are listed
without it. So a size that has wrapped loses no points, and `Grid.IsCounted` lists what it does
spoil.

## Why the condition has two products

The lengths are multiplied one after the other. The product of the first two may wrap although the
third list is empty, and then the whole product is zero, as it should be; but on the way a number
that is too small was formed, which would be an error where overflows are errors. So neither product
may wrap.

## Main definitions

* `Grid.IsCounted`: the size and all that is made of it tell the number of points.

## Main results

* `Grid.toNat_size`: the size is the number of points, modulo `2 ^ 64`.
* `Grid.isCounted_iff`: when the size tells the number of points.
* `Grid.IsCounted.index_lt`: then every index fits as well.
* `Grid.size_wraps`: a grid whose size is zero.
-/

namespace BenchSweep.Grid

open Number (natText twoTo)

/-- The products of the size do not overflow, and the size is the number of points wherever it is
used: for the test whether a grid is empty, in the log, and as the length of a counter. -/
structure IsCounted (g : Grid) : Prop where
  toNat_mul : (UInt64.ofNat g.servers.length * UInt64.ofNat g.clients.length).toNat =
    g.servers.length * g.clients.length
  toNat_mul_mul : g.size.toNat =
    (UInt64.ofNat g.servers.length * UInt64.ofNat g.clients.length).toNat * g.ratios.length
  toNat_size : g.size.toNat = g.points.length
  isEmpty_iff : g.isEmpty = true ↔ g.points = []
  gridText_eq : Sweep.gridText g = "sweeping " ++ natText g.points.length ++ " points ("
    ++ natText g.servers.length ++ " servers x " ++ natText g.clients.length ++ " clients x "
    ++ natText g.ratios.length ++ " ratios)"
  position_finish : (Progress.ofLength g.size.toNat).finish.position = g.points.length

/-- A product of two counts is exact up to the bound. -/
theorem toNat_ofNat_mul_eq_iff {m n : ℕ} :
    (UInt64.ofNat m * UInt64.ofNat n).toNat = m * n ↔ m * n < twoTo 64 := by
  rw [← UInt64.ofNat_mul, UInt64.toNat_ofNat']
  exact Nat.mod_eq_iff_lt (by decide)

/-- **The size is the number of points, modulo `2 ^ 64`.** -/
theorem toNat_size (g : Grid) : g.size.toNat = g.points.length % twoTo 64 := by
  rw [size, ← UInt64.ofNat_mul, ← UInt64.ofNat_mul, UInt64.toNat_ofNat', length_points]
  rfl

/-- A grid counts as empty if its number of points is a multiple of `2 ^ 64`. -/
theorem isEmpty_iff_dvd (g : Grid) : g.isEmpty = true ↔ twoTo 64 ∣ g.points.length := by
  rw [isEmpty, decide_eq_true_eq, ← UInt64.toNat_inj, toNat_size, Nat.dvd_iff_mod_eq_zero]
  rfl

/-- **When the size tells the number of points.** This is so exactly if neither product reaches
`2 ^ 64`. -/
theorem isCounted_iff (g : Grid) :
    g.IsCounted ↔ g.servers.length * g.clients.length < twoTo 64 ∧
      g.servers.length * g.clients.length * g.ratios.length < twoTo 64 := by
  constructor
  · intro h
    refine ⟨toNat_ofNat_mul_eq_iff.1 h.toNat_mul, ?_⟩
    rw [← length_points, ← h.toNat_size]
    exact g.size.toNat_lt
  · rintro ⟨hpair, hall⟩
    have hsize : g.size.toNat = g.points.length := by
      rw [toNat_size, length_points, Nat.mod_eq_of_lt hall]
    have hmul := toNat_ofNat_mul_eq_iff.2 hpair
    refine ⟨hmul, by rw [hsize, length_points, hmul], hsize, ?_, ?_, hsize⟩
    · rw [isEmpty, decide_eq_true_eq, ← UInt64.toNat_inj, hsize]
      exact List.length_eq_zero_iff
    · rw [← hsize]
      rfl

/-- Where the points are counted, an index fits into the bits of a count. -/
theorem IsCounted.index_lt {g : Grid} (h : g.IsCounted) {p : Point} (hp : p ∈ g.points) :
    p.index < twoTo 64 := by
  obtain ⟨i, hi⟩ := List.getElem?_of_mem hp
  obtain ⟨hlt, -⟩ := List.getElem?_eq_some_iff.1 hi
  rw [index_of_getElem? hi]
  rw [← h.toNat_size] at hlt
  exact hlt.trans g.size.toNat_lt

/-- **A grid whose size is zero.** It passes the check, and it has `2 ^ 64` points. -/
theorem size_wraps :
    let g : Grid :=
      ⟨List.replicate (twoTo 22) 1, List.replicate (twoTo 22) 1, List.replicate (twoTo 20) ⟨0⟩⟩
    (g.servers.length < twoTo 60 ∧ g.clients.length < twoTo 60 ∧ g.ratios.length < twoTo 60) ∧
      g.check = .ok () ∧ g.points.length = twoTo 64 ∧ g.size = 0 ∧ g.isEmpty = true ∧
      ¬g.IsCounted := by
  intro g
  have hcounts : (List.replicate (twoTo 22) (1 : UInt64)).length = twoTo 22 :=
    List.length_replicate
  have hratios : g.ratios.length = twoTo 20 := List.length_replicate
  have hpoints : g.points.length = twoTo 64 := by
    rw [length_points, hcounts, hratios]
    decide
  have hempty : g.isEmpty = true := g.isEmpty_iff_dvd.2 (dvd_of_eq hpoints.symm)
  refine ⟨?_, check_eq_ok_iff.2 ⟨?_, ?_, ?_⟩, hpoints, of_decide_eq_true hempty, hempty,
    fun h => ?_⟩
  · rw [hcounts, hratios]
    decide
  · intro n hn
    rw [List.eq_of_mem_replicate hn]
    decide
  · intro n hn
    rw [List.eq_of_mem_replicate hn]
    decide
  · intro r hr
    rw [List.eq_of_mem_replicate hr, isRatio_iff]
    decide
  · have hlt := ((isCounted_iff g).1 h).2
    rw [← length_points, hpoints] at hlt
    exact lt_irrefl _ hlt

end BenchSweep.Grid
