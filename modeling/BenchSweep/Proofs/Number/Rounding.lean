import BenchSweep.Number.Binary64
import Mathlib.Algebra.Order.Field.Rat
import Mathlib.Data.Nat.Log
import Mathlib.Order.Monotone.Basic
import Mathlib.Tactic.FieldSimp
import Mathlib.Tactic.Linarith
import Mathlib.Tactic.Positivity
import Mathlib.Tactic.Ring

/-!
# Rounding to the nearest magnitude

A magnitude stands for a rational number, and larger magnitudes stand for larger numbers. The
magnitude nearest to a rational number is determined by it: the number lies between the midpoints
to the two neighbours, and on a midpoint the magnitude is even. So it does not matter how the number
is written as a quotient, rounding is monotone, and a number that a magnitude stands for is rounded
to it.

Infinity takes part as the magnitude after the largest finite one, without a neighbour above.

## Why nearness is a structure

The rounding to the nearest is computed by shifts and a division with remainder, and none of this is
visible in what it is for. `IsNearest` says what the result is, by the midpoints to its two
neighbours, and it determines the result. So whatever computes it, from a quotient, a product or a
decimal, is shown to have it once, and after that only the order of the rational numbers is used.

## Why a tie is told by the magnitude

A tie goes to the even significand. In a magnitude the significand is at the end, so that it is even
exactly if the magnitude is, and also at a power of two, where the neighbours are at different
distances (`even_mul_add_iff`). The two conditions of `IsNearest` on ties therefore need no fields
of bits.

## Main definitions

* `Binary64.value`: the rational number that a magnitude stands for.
* `Binary64.gap`: the distance of a magnitude to the next one, in units.
* `Binary64.IsNearest`: a magnitude is the nearest one to a rational number.

## Main results

* `Binary64.isNearest_nearest`: the quotient is rounded to the nearest magnitude.
* `Binary64.IsNearest.unique`, `Binary64.IsNearest.le_of_le`: the nearest magnitude is one, and it
  is monotone.
* `Binary64.isNearest_value`: a magnitude is nearest to its own value.
-/

namespace BenchSweep.Number

theorem twoTo_eq (n : ℕ) : twoTo n = 2 ^ n :=
  rfl

theorem tenTo_eq (n : ℕ) : tenTo n = 10 ^ n :=
  rfl

theorem twoTo_add (m n : ℕ) : twoTo m * twoTo n = twoTo (m + n) :=
  (pow_add 2 m n).symm

theorem tenTo_add (m n : ℕ) : tenTo m * tenTo n = tenTo (m + n) :=
  (pow_add 10 m n).symm

theorem twoTo_pos (n : ℕ) : 0 < twoTo n :=
  Nat.two_pow_pos n

theorem tenTo_pos (n : ℕ) : 0 < tenTo n :=
  Nat.pow_pos (by decide)

theorem twoTo_le_twoTo {m n : ℕ} (h : m ≤ n) : twoTo m ≤ twoTo n :=
  Nat.pow_le_pow_right two_pos h

theorem tenTo_le_tenTo {m n : ℕ} (h : m ≤ n) : tenTo m ≤ tenTo n :=
  Nat.pow_le_pow_right (by decide) h

/-! ### Rounding to a natural number -/

/-- A quotient rounded half to even is at most half away, and exactly half only if it is even. -/
theorem roundHalfEven_spec (num : ℕ) {den : ℕ} (hden : 0 < den) :
    let r := roundHalfEven num den
    2 * num ≤ (2 * r + 1) * den ∧ 2 * r * den ≤ 2 * num + den ∧
      (2 * num = (2 * r + 1) * den → r % 2 = 0) ∧ (2 * r * den = 2 * num + den → r % 2 = 0) := by
  intro r
  obtain ⟨q, m, hm, rfl⟩ : ∃ q m, m < den ∧ num = den * q + m :=
    ⟨num / den, num % den, Nat.mod_lt num hden, (Nat.div_add_mod num den).symm⟩
  have hq : (den * q + m) / den = q := by
    rw [Nat.mul_add_div hden, Nat.div_eq_of_lt hm, Nat.add_zero]
  have hr : (den * q + m) % den = m := by
    rw [Nat.mul_add_mod, Nat.mod_eq_of_lt hm]
  have hround : r = if 2 * m < den then q else if den < 2 * m then q + 1
      else if q % 2 = 0 then q else q + 1 := by
    simp only [r, roundHalfEven, hq, hr]
  have hup : (2 * (q + 1) + 1) * den = 2 * (den * q) + 3 * den := by ring
  have hmid : (2 * q + 1) * den = 2 * (den * q) + den := by ring
  have hnext : 2 * (q + 1) * den = 2 * (den * q) + 2 * den := by ring
  have hself : 2 * q * den = 2 * (den * q) := by ring
  rw [hround]
  split
  · omega
  split
  · omega
  split
  · omega
  · omega

theorem roundHalfEven_le {num den a : ℕ} (hden : 0 < den) (h : num ≤ a * den) :
    roundHalfEven num den ≤ a := by
  obtain ⟨-, hlow, -⟩ := roundHalfEven_spec num hden
  by_contra hlt
  have hsucc : 2 * (a + 1) * den ≤ 2 * roundHalfEven num den * den :=
    Nat.mul_le_mul_right den (by omega)
  have hexpand : 2 * (a + 1) * den = 2 * (a * den) + 2 * den := by ring
  omega

theorem le_roundHalfEven {num den a : ℕ} (hden : 0 < den) (h : a * den ≤ num) :
    a ≤ roundHalfEven num den := by
  obtain ⟨hup, -, -⟩ := roundHalfEven_spec num hden
  by_contra hlt
  have hsucc : (2 * roundHalfEven num den + 1) * den + den ≤ 2 * a * den := by
    rw [← Nat.succ_mul]
    exact Nat.mul_le_mul_right den (by omega)
  have hexpand : 2 * a * den = 2 * (a * den) := by ring
  omega

namespace Binary64

/-! ### Magnitudes and their values -/

/-- The distance of a magnitude to the next one, in units. -/
def gap (k : ℕ) : ℕ :=
  twoTo (k / twoTo 52 - 1)

theorem gap_pos (k : ℕ) : 0 < gap k :=
  twoTo_pos _

theorem units_of_lt {k : ℕ} (h : k < twoTo 52) : units k = k :=
  if_pos h

/-- The units of a magnitude that is put together from an exponent and a number of steps. -/
theorem units_mul_add {j r : ℕ} (hr : r ≤ 2 * twoTo 52) (hj : j = 0 ∨ twoTo 52 ≤ r) :
    units (j * twoTo 52 + r) = r * twoTo j := by
  have hpos := twoTo_pos 52
  rcases Nat.lt_or_ge r (twoTo 52) with hlt | hge
  · obtain rfl : j = 0 := hj.resolve_right (Nat.not_le.2 hlt)
    rw [Nat.zero_mul, Nat.zero_add, units_of_lt hlt, twoTo_zero, Nat.mul_one]
  obtain ⟨f, rfl⟩ := Nat.exists_eq_add_of_le hge
  have hk : j * twoTo 52 + (twoTo 52 + f) = f + twoTo 52 * (j + 1) := by ring
  have hnot : ¬ f + twoTo 52 * (j + 1) < twoTo 52 := by
    have := Nat.le_mul_of_pos_right (twoTo 52) (Nat.succ_pos j)
    omega
  rw [hk, units, if_neg hnot, Nat.add_mul_mod_self_left, Nat.add_mul_div_left _ _ hpos]
  rcases Nat.lt_or_ge f (twoTo 52) with hf | hf
  · rw [Nat.mod_eq_of_lt hf, Nat.div_eq_of_lt hf, Nat.zero_add, Nat.add_sub_cancel]
  · obtain rfl : f = twoTo 52 := by omega
    have he : twoTo 52 / twoTo 52 + (j + 1) - 1 = j + 1 := by
      rw [Nat.div_self hpos]
      omega
    rw [Nat.mod_self, Nat.add_zero, he, twoTo_succ j]
    ring

theorem units_succ (k : ℕ) : units (k + 1) = units k + gap k := by
  have hpos := twoTo_pos 52
  obtain ⟨j, r, hr, hj, rfl⟩ :
      ∃ j r, r < 2 * twoTo 52 ∧ (j = 0 ∨ twoTo 52 ≤ r) ∧ k = j * twoTo 52 + r := by
    have hsplit := Nat.mod_add_div k (twoTo 52)
    have hmod := Nat.mod_lt k hpos
    cases hq : k / twoTo 52 with
    | zero =>
      rw [hq] at hsplit
      exact ⟨0, k, by omega, .inl rfl, by omega⟩
    | succ j =>
      refine ⟨j, twoTo 52 + k % twoTo 52, by omega, .inr (Nat.le_add_right _ _), ?_⟩
      rw [hq, Nat.mul_succ] at hsplit
      rw [Nat.mul_comm j]
      omega
  have hgap : gap (j * twoTo 52 + r) = twoTo j := by
    rw [gap, Nat.mul_comm, Nat.mul_add_div hpos]
    rcases Nat.lt_or_ge r (twoTo 52) with hlt | hge
    · rw [Nat.div_eq_of_lt hlt, hj.resolve_right (Nat.not_le.2 hlt)]
    · have hone : r / twoTo 52 = 1 := by
        rw [Nat.div_eq_iff hpos]
        omega
      rw [hone, Nat.add_sub_cancel]
  rw [hgap, Nat.add_assoc, units_mul_add (by omega) (by omega), units_mul_add (by omega) hj]
  ring

theorem twoTo_le_gap {j r : ℕ} (hj : j = 0 ∨ twoTo 52 ≤ r) : twoTo j ≤ gap (j * twoTo 52 + r) := by
  rcases hj with rfl | hr
  · exact Nat.succ_le_of_lt (gap_pos _)
  · refine twoTo_le_twoTo ?_
    rw [Nat.mul_comm, Nat.mul_add_div (twoTo_pos 52)]
    have := (Nat.one_le_div_iff (twoTo_pos 52)).2 hr
    omega

theorem strictMono_units : StrictMono units :=
  strictMono_nat_of_lt_succ fun k => by
    rw [units_succ]
    exact Nat.lt_add_of_pos_right (gap_pos k)

theorem units_zero : units 0 = 0 :=
  units_of_lt (twoTo_pos 52)

theorem unitsPerOne_pos : 0 < unitsPerOne :=
  twoTo_pos 1074

/-- The rational number that a magnitude stands for. -/
def value (k : ℕ) : ℚ :=
  units k / unitsPerOne

theorem unitsPerOne_pos' : (0 : ℚ) < unitsPerOne :=
  Nat.cast_pos.2 unitsPerOne_pos

theorem value_mul_unitsPerOne (k : ℕ) : value k * unitsPerOne = units k :=
  div_mul_cancel₀ _ unitsPerOne_pos'.ne'

theorem strictMono_value : StrictMono value := fun _ _ h =>
  div_lt_div_of_pos_right (Nat.cast_lt.2 (strictMono_units h)) unitsPerOne_pos'

theorem value_zero : value 0 = 0 := by
  rw [value, units_zero, Nat.cast_zero, zero_div]

theorem value_nonneg (k : ℕ) : 0 ≤ value k :=
  value_zero ▸ strictMono_value.monotone (Nat.zero_le k)

theorem value_pos {k : ℕ} (h : 0 < k) : 0 < value k :=
  value_zero ▸ strictMono_value h

theorem value_succ (k : ℕ) : value (k + 1) = value k + gap k / unitsPerOne := by
  rw [value, units_succ, Nat.cast_add, add_div, value]

/-! ### The nearest magnitude -/

/-- A magnitude up to infinity is the nearest one to a rational number: the number is between the
midpoints to the neighbours, and on a midpoint the magnitude is even. -/
structure IsNearest (q : ℚ) (k : ℕ) : Prop where
  le_infinity : k ≤ infinity
  le_upper : k < infinity → 2 * q ≤ value k + value (k + 1)
  lower_le : ∀ j, k = j + 1 → value j + value k ≤ 2 * q
  even_of_upper : k < infinity → 2 * q = value k + value (k + 1) → Even k
  even_of_lower : ∀ j, k = j + 1 → value j + value k = 2 * q → Even k

theorem even_infinity : Even infinity := by
  decide

theorem even_mul_add_iff (j r : ℕ) : Even (j * twoTo 52 + r) ↔ Even r := by
  have h : Even (j * twoTo 52) := Even.mul_left (by decide) j
  rw [Nat.even_add]
  exact ⟨fun he => he.1 h, fun hr => iff_of_true h hr⟩

/-- Numbers in order have nearest magnitudes in order. -/
theorem IsNearest.le_of_le {q q' : ℚ} {k k' : ℕ} (h : IsNearest q k) (h' : IsNearest q' k')
    (hq : q ≤ q') : k ≤ k' := by
  by_contra hlt
  rw [not_le] at hlt
  obtain ⟨j, rfl⟩ : ∃ j, k = j + 1 := ⟨k - 1, by omega⟩
  have hfin : k' < infinity := lt_of_lt_of_le hlt h.le_infinity
  have hup := h'.le_upper hfin
  have hlow := h.lower_le j rfl
  have hkj : value k' ≤ value j := strictMono_value.monotone (Nat.lt_succ_iff.1 hlt)
  have hkj' : value (k' + 1) ≤ value (j + 1) := strictMono_value.monotone hlt
  have hj : k' = j := strictMono_value.injective (by linarith)
  subst hj
  have heven := h.even_of_lower k' rfl (by linarith)
  have heven' := h'.even_of_upper hfin (by linarith)
  exact absurd heven' (Nat.even_add_one.1 heven)

theorem IsNearest.unique {q : ℚ} {k k' : ℕ} (h : IsNearest q k) (h' : IsNearest q k') : k = k' :=
  Nat.le_antisymm (h.le_of_le h' le_rfl) (h'.le_of_le h le_rfl)

/-- No other magnitude is nearer. -/
theorem IsNearest.abs_sub_le_abs_sub {q : ℚ} {k j : ℕ} (h : IsNearest q k) (hj : j ≤ infinity) :
    |value k - q| ≤ |value j - q| := by
  rcases lt_trichotomy j k with hlt | rfl | hgt
  · obtain ⟨i, rfl⟩ : ∃ i, k = i + 1 := ⟨k - 1, by omega⟩
    have hlow := h.lower_le i rfl
    have hji : value j ≤ value i := strictMono_value.monotone (Nat.le_of_lt_succ hlt)
    have hik : value i < value (i + 1) := strictMono_value (Nat.lt_succ_self i)
    rw [abs_sub_comm (value j), abs_of_nonneg (by linarith : 0 ≤ q - value j), abs_le]
    constructor <;> linarith
  · exact le_rfl
  · have hup := h.le_upper (hgt.trans_le hj)
    have hkj : value (k + 1) ≤ value j := strictMono_value.monotone hgt
    have hk : value k < value (k + 1) := strictMono_value (Nat.lt_succ_self k)
    rw [abs_of_nonneg (by linarith : 0 ≤ value j - q), abs_le]
    constructor <;> linarith

/-- What lies between the midpoints and on neither of them is rounded to the magnitude. -/
theorem isNearest_of_lt_of_lt {q : ℚ} {k : ℕ} (hk : k ≤ infinity)
    (hup : 2 * q < value k + value (k + 1)) (hlow : ∀ j, k = j + 1 → value j + value k < 2 * q) :
    IsNearest q k where
  le_infinity := hk
  le_upper _ := hup.le
  lower_le j hj := (hlow j hj).le
  even_of_upper _ h := absurd h hup.ne
  even_of_lower j hj h := absurd h (hlow j hj).ne

/-- A magnitude is the nearest one to its own value. -/
theorem isNearest_value {k : ℕ} (hk : k ≤ infinity) : IsNearest (value k) k :=
  isNearest_of_lt_of_lt hk (by linarith [strictMono_value (Nat.lt_succ_self k)]) fun j hj => by
    linarith [strictMono_value (show j < k by omega)]

/-- What lies past infinity is rounded to it. -/
theorem isNearest_min {q : ℚ} {k : ℕ} (hup : 2 * q ≤ value k + value (k + 1))
    (hlow : ∀ j, k = j + 1 → value j + value k ≤ 2 * q)
    (heven : 2 * q = value k + value (k + 1) → Even k)
    (heven' : ∀ j, k = j + 1 → value j + value k = 2 * q → Even k) :
    IsNearest q (min infinity k) := by
  rcases Nat.le_total k infinity with hle | hle
  · rw [Nat.min_eq_right hle]
    exact ⟨hle, fun _ => hup, hlow, fun _ => heven, heven'⟩
  · rw [Nat.min_eq_left hle]
    refine ⟨le_rfl, fun h => absurd h (lt_irrefl _), fun j hj => ?_,
      fun h => absurd h (lt_irrefl _), fun _ _ _ => even_infinity⟩
    obtain ⟨i, rfl⟩ : ∃ i, k = i + 1 := ⟨k - 1, by omega⟩
    have hji : value j ≤ value i := strictMono_value.monotone (by omega)
    have hki : value infinity ≤ value (i + 1) := strictMono_value.monotone hle
    linarith [hlow i rfl]

/-- The step of a quotient is chosen so that it is less than `2 ^ 53` steps, and at least `2 ^ 52`
steps unless a step is a unit. -/
theorem log2_div_bounds (scaled : ℕ) {den : ℕ} (hden : 0 < den) :
    let j := (scaled / den).log2 - 52
    scaled < 2 * twoTo 52 * (den * twoTo j) ∧
      (j = 0 ∨ twoTo 52 * (den * twoTo j) ≤ scaled) := by
  intro j
  constructor
  · rw [show 2 * twoTo 52 * (den * twoTo j) = twoTo (53 + j) * den by
      rw [twoTo_eq (53 + j), pow_add, twoTo_eq, twoTo_eq]
      ring, ← Nat.div_lt_iff_lt_mul hden]
    exact lt_of_lt_of_le Nat.lt_log2_self (twoTo_le_twoTo (by omega))
  · rcases Nat.eq_zero_or_pos j with hj | hj
    · exact .inl hj
    · right
      have hne : scaled / den ≠ 0 := by
        intro h
        simp [j, h] at hj
      have hlog : (scaled / den).log2 = 52 + j := by omega
      rw [show twoTo 52 * (den * twoTo j) = twoTo (52 + j) * den by
        rw [twoTo_eq (52 + j), pow_add, twoTo_eq, twoTo_eq]
        ring, ← Nat.le_div_iff_mul_le hden, ← hlog]
      exact Nat.log2_self_le hne

section Quotient

variable (num : ℕ) {den : ℕ}

theorem two_mul_div_mul (hden : 0 < den) :
    2 * (num / den : ℚ) * (den * unitsPerOne) = (2 * (num * unitsPerOne) : ℕ) := by
  have h : (den : ℚ) ≠ 0 := Nat.cast_ne_zero.2 hden.ne'
  push_cast
  rw [mul_assoc, ← mul_assoc (_ / _), div_mul_cancel₀ _ h]

theorem value_add_value_mul (den a b : ℕ) :
    (value a + value b) * (den * unitsPerOne) = ((units a + units b) * den : ℕ) := by
  rw [mul_left_comm, add_mul, value_mul_unitsPerOne, value_mul_unitsPerOne, mul_comm]
  push_cast
  ring

theorem two_mul_div_le_iff (hden : 0 < den) (a b : ℕ) :
    2 * (num / den : ℚ) ≤ value a + value b ↔
      2 * (num * unitsPerOne) ≤ (units a + units b) * den := by
  have h : (0 : ℚ) < den * unitsPerOne := mul_pos (Nat.cast_pos.2 hden) unitsPerOne_pos'
  rw [← mul_le_mul_iff_left₀ h, two_mul_div_mul num hden, value_add_value_mul, Nat.cast_le]

theorem le_two_mul_div_iff (hden : 0 < den) (a b : ℕ) :
    value a + value b ≤ 2 * (num / den : ℚ) ↔
      (units a + units b) * den ≤ 2 * (num * unitsPerOne) := by
  have h : (0 : ℚ) < den * unitsPerOne := mul_pos (Nat.cast_pos.2 hden) unitsPerOne_pos'
  rw [← mul_le_mul_iff_left₀ h, two_mul_div_mul num hden, value_add_value_mul, Nat.cast_le]

end Quotient

section Steps

variable {j r : ℕ} (hrle : r ≤ 2 * twoTo 52) (hrge : j = 0 ∨ twoTo 52 ≤ r)
include hrle hrge

/-- The midpoint above a magnitude is at least half a step away. -/
theorem le_units_add_units_succ :
    (2 * r + 1) * twoTo j ≤ units (j * twoTo 52 + r) + units (j * twoTo 52 + r + 1) := by
  rw [units_succ, units_mul_add hrle hrge]
  have hgap : twoTo j ≤ gap (j * twoTo 52 + r) := twoTo_le_gap hrge
  calc (2 * r + 1) * twoTo j = r * twoTo j + (r * twoTo j + twoTo j) := by ring
    _ ≤ _ := by omega

/-- The midpoint below a magnitude is half a step away, unless the steps below are smaller. -/
theorem units_add_units_eq {i : ℕ} (hi : j * twoTo 52 + r = i + 1)
    (hpow : ¬(j ≠ 0 ∧ r = twoTo 52)) :
    units i + units (i + 1) + twoTo j = 2 * r * twoTo j := by
  have hne : r ≠ 0 := by
    have := twoTo_pos 52
    rintro rfl
    rcases hrge with rfl | h <;> omega
  obtain ⟨t, rfl⟩ := Nat.exists_eq_add_one_of_ne_zero hne
  obtain rfl : i = j * twoTo 52 + t := by omega
  rw [← hi, units_mul_add hrle hrge, units_mul_add (by omega) (by omega)]
  ring

end Steps

/-- **The quotient is rounded to the nearest magnitude.** -/
theorem isNearest_nearest (num : ℕ) {den : ℕ} (hden : 0 < den) :
    IsNearest (num / den) (nearest num den) := by
  obtain ⟨s, hs⟩ : ∃ s, s = num * unitsPerOne := ⟨_, rfl⟩
  obtain ⟨j, hj⟩ : ∃ j, j = (s / den).log2 - 52 := ⟨_, rfl⟩
  obtain ⟨r, hr⟩ : ∃ r, r = roundHalfEven s (den * twoTo j) := ⟨_, rfl⟩
  have hnearest : nearest num den = min infinity (j * twoTo 52 + r) := by
    simp only [nearest, ← hs, ← hj, ← hr]
  have hstep : 0 < den * twoTo j := Nat.mul_pos hden (twoTo_pos j)
  obtain ⟨hup, hlow, heven, heven'⟩ := roundHalfEven_spec s hstep
  obtain ⟨hlt, hge⟩ := log2_div_bounds s hden
  rw [← hj] at hlt hge
  have hrle : r ≤ 2 * twoTo 52 := hr ▸ roundHalfEven_le hstep hlt.le
  have hrge : j = 0 ∨ twoTo 52 ≤ r := hge.imp_right fun h => hr ▸ le_roundHalfEven hstep h
  rw [← hr] at hup hlow heven heven'
  have hparity : Even (j * twoTo 52 + r) ↔ r % 2 = 0 := by
    rw [even_mul_add_iff, Nat.even_iff]
  have habove : (2 * r + 1) * (den * twoTo j) ≤
      (units (j * twoTo 52 + r) + units (j * twoTo 52 + r + 1)) * den := by
    rw [Nat.mul_comm den, ← Nat.mul_assoc]
    exact Nat.mul_le_mul_right den (le_units_add_units_succ hrle hrge)
  -- at a power of two the steps below are smaller, but there the quotient is not below
  have hbelow : ∀ i, j * twoTo 52 + r = i + 1 →
      (units i + units (i + 1)) * den < 2 * s ∨
        2 * r * (den * twoTo j) = (units i + units (i + 1)) * den + den * twoTo j := by
    intro i hi
    by_cases hpow : j ≠ 0 ∧ r = twoTo 52
    · left
      have hlow' : units i < units (i + 1) := strictMono_units (Nat.lt_succ_self i)
      have hs' : units (i + 1) * den ≤ s := by
        rw [← hi, units_mul_add hrle hrge, hpow.2, mul_assoc, mul_comm (twoTo j)]
        exact hge.resolve_left hpow.1
      have := Nat.mul_lt_mul_of_pos_right hlow' hden
      rw [add_mul]
      omega
    · right
      rw [Nat.mul_comm den, ← Nat.mul_assoc, ← units_add_units_eq hrle hrge hi hpow, add_mul]
  rw [hnearest]
  refine isNearest_min ?_ (fun i hi => ?_) (fun h => ?_) fun i hi h => ?_
  · rw [two_mul_div_le_iff num hden, ← hs]
    omega
  · rw [hi, le_two_mul_div_iff num hden, ← hs]
    have := hbelow i hi
    omega
  · rw [hparity]
    have h' := (le_two_mul_div_iff num hden _ _).1 h.ge
    rw [← hs] at h'
    exact heven (by omega)
  · rw [hparity]
    rw [hi] at h
    have h' := (two_mul_div_le_iff num hden _ _).1 h.ge
    rw [← hs] at h'
    have := hbelow i hi
    exact heven' (by omega)

/-! ### What is nearest -/

theorem isNearest_mulMagnitude (a b : ℕ) :
    IsNearest (value a * value b) (mulMagnitude a b) := by
  have h := isNearest_nearest (units a * units b) (Nat.mul_pos unitsPerOne_pos unitsPerOne_pos)
  rwa [Nat.cast_mul, Nat.cast_mul, mul_div_mul_comm] at h

theorem isNearest_divMagnitude (a : ℕ) {b : ℕ} (hb : 0 < b) :
    IsNearest (value a / value b) (divMagnitude a b) := by
  have h := isNearest_nearest (units a) (units_zero ▸ strictMono_units hb)
  rwa [← div_div_div_cancel_right₀ unitsPerOne_pos'.ne'] at h

theorem isNearest_zero {q : ℚ} (h : 2 * q < value 1) : IsNearest q 0 where
  le_infinity := Nat.zero_le _
  le_upper _ := by rw [value_zero, zero_add]; exact h.le
  lower_le j hj := by cases hj
  even_of_upper _ _ := Even.zero
  even_of_lower j hj := by cases hj

theorem isNearest_infinity {q : ℚ} (h : value infinity ≤ q) : IsNearest q infinity where
  le_infinity := le_rfl
  le_upper h := absurd h (lt_irrefl _)
  lower_le j hj := by linarith [strictMono_value (show j < infinity by omega)]
  even_of_upper h := absurd h (lt_irrefl _)
  even_of_lower _ _ _ := even_infinity

/-- A whole number below `2 ^ 53` times a power of two has a magnitude of its own. -/
theorem exists_value_eq {m j : ℕ} (hm : m < twoTo 53) (hj : j ≤ 971) :
    ∃ k, k < infinity ∧ value k = m * twoTo j := by
  rcases Nat.eq_zero_or_pos m with rfl | hpos
  · exact ⟨0, by decide, by rw [value_zero, Nat.cast_zero, zero_mul]⟩
  -- enough doublings to bring `m` to fifty-three bits
  obtain ⟨t, ht⟩ : ∃ t, t + m.log2 = 52 := by
    have : m.log2 < 53 := (Nat.log2_lt hpos.ne').2 hm
    exact ⟨52 - m.log2, by omega⟩
  have hlow : twoTo 52 ≤ m * twoTo t := by
    calc twoTo 52 = twoTo m.log2 * twoTo t := by rw [twoTo_add, add_comm, ht]
      _ ≤ m * twoTo t := Nat.mul_le_mul_right _ (Nat.log2_self_le hpos.ne')
  have hup : m * twoTo t < 2 * twoTo 52 := by
    calc m * twoTo t < twoTo (m.log2 + 1) * twoTo t :=
          Nat.mul_lt_mul_of_pos_right Nat.lt_log2_self (twoTo_pos t)
      _ = 2 * twoTo 52 := by
          rw [twoTo_add, show m.log2 + 1 + t = 52 + 1 by omega, twoTo_succ, mul_comm]
  refine ⟨(j + 1074 - t) * twoTo 52 + m * twoTo t, ?_, ?_⟩
  · have : (j + 1074 - t) * twoTo 52 ≤ 2045 * twoTo 52 := Nat.mul_le_mul_right _ (by omega)
    have : infinity = 2045 * twoTo 52 + 2 * twoTo 52 := by rw [← add_mul]; rfl
    omega
  · rw [value, units_mul_add hup.le (.inr hlow), div_eq_iff unitsPerOne_pos'.ne', unitsPerOne,
      ← Nat.cast_mul, ← Nat.cast_mul, mul_assoc, mul_assoc, twoTo_add, twoTo_add,
      show t + (j + 1074 - t) = j + 1074 by omega]

/-- Above `2 ^ 52` units, neighbours are relatively close. -/
theorem gap_mul_le {k : ℕ} (h : twoTo 52 ≤ k) : gap k * twoTo 52 ≤ units k := by
  rw [gap, units, if_neg (Nat.not_lt.2 h), mul_comm]
  exact Nat.mul_le_mul_right _ (Nat.le_add_right _ _)

/-! ### Sign and magnitude -/

theorem infinity_lt : infinity < twoTo 63 := by
  decide

theorem toNat_ofMagnitude (negative : Bool) {k : ℕ} (hk : k < twoTo 63) :
    (ofMagnitude negative k).bits.toNat = k + if negative then twoTo 63 else 0 := by
  have h : twoTo 63 + twoTo 63 = 2 ^ 64 := rfl
  rw [ofMagnitude, UInt64.toNat_ofNat', Nat.mod_eq_of_lt]
  split <;> omega

theorem magnitude_ofMagnitude (negative : Bool) {k : ℕ} (hk : k < twoTo 63) :
    (ofMagnitude negative k).magnitude = k := by
  rw [magnitude, toNat_ofMagnitude negative hk]
  cases negative
  · exact Nat.mod_eq_of_lt hk
  · rw [if_pos rfl, Nat.add_mod_right, Nat.mod_eq_of_lt hk]

theorem isNegative_ofMagnitude (negative : Bool) {k : ℕ} (hk : k < twoTo 63) :
    (ofMagnitude negative k).isNegative = negative := by
  rw [isNegative, toNat_ofMagnitude negative hk]
  cases negative
  · simpa using hk
  · simp

/-- A number is put together from its sign and its magnitude. -/
theorem ofMagnitude_magnitude (x : Binary64) : ofMagnitude x.isNegative x.magnitude = x := by
  obtain ⟨bits⟩ := x
  have hlt : bits.toNat < twoTo 63 + twoTo 63 := bits.toNat_lt
  rw [ofMagnitude, Binary64.mk.injEq, ← UInt64.toNat_inj, UInt64.toNat_ofNat']
  rcases Nat.lt_or_ge bits.toNat (twoTo 63) with h | h
  · have hn : isNegative ⟨bits⟩ = false := by simpa [isNegative] using h
    rw [hn, magnitude, Nat.mod_eq_of_lt h]
    exact Nat.mod_eq_of_lt bits.toNat_lt
  · have hn : isNegative ⟨bits⟩ = true := by simpa [isNegative] using h
    have hmod : bits.toNat % twoTo 63 = bits.toNat - twoTo 63 := by
      rw [Nat.mod_eq_sub_mod h, Nat.mod_eq_of_lt (by omega)]
    rw [hn, magnitude, hmod, if_pos rfl, Nat.sub_add_cancel h]
    exact Nat.mod_eq_of_lt bits.toNat_lt

end Binary64

end BenchSweep.Number
