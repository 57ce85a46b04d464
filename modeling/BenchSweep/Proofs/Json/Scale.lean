import BenchSweep.Proofs.Json.Scalar

/-!
# The numbers of literals

The number of a literal comes of two roundings: of the kept digits, and of their product with a
power of ten or their quotient by one. A rounding of a number that a magnitude stands for changes
nothing. So the result is rounded once, and correctly, where the digits are exact and the power of
ten is small.

## Why exact digits are rounded once

Digits are rounded to a number first, and digits below `2 ^ 53` are such a number already. A power
of ten is a number as long as its fifth power part has fifty-three bits, up to the twenty-second. If
both are exact, the last operation is the only one that rounds, and it rounds correctly.

## Main results

* `value_powerOfTen`: small powers of ten are exact.
* `scale_zero`: without a power of ten, digits are rounded once.
* `scale_of_exact`: exact digits at a small power of ten are rounded once.
-/

namespace BenchSweep.Json

open Number (Binary64 Decimal Literal digitsValue tenTo twoTo)
open Number.Binary64 (IsNearest infinity isNearest_divMagnitude isNearest_mulMagnitude
  isNearest_nearest isNearest_value nearest value)

/-- A power of ten is a power of five times a power of two. -/
theorem tenTo_eq_five_mul (n : ℕ) : tenTo n = Nat.pow 5 n * twoTo n :=
  Nat.mul_pow 5 2 n

/-- The powers of ten up to the twenty-second are exact. -/
theorem value_powerOfTen {n : ℕ} (hn : n ≤ 22) : value (powerOfTen n) = tenTo n := by
  have hfive : Nat.pow 5 n < twoTo 53 :=
    (Nat.pow_le_pow_right (by decide) hn).trans_lt (by decide : Nat.pow 5 22 < twoTo 53)
  obtain ⟨k, hk, hvalue⟩ := Number.Binary64.exists_value_eq hfive (show n ≤ 971 by omega)
  have hten : value k = tenTo n := by
    rw [hvalue, tenTo_eq_five_mul, Nat.cast_mul]
  have hnearest : IsNearest (Decimal.value ⟨1, .ofNat n⟩) (powerOfTen n) :=
    (Decimal.mk 1 n).isNearest_magnitude
  rw [Decimal.value_ofNat, Nat.one_mul, ← hten] at hnearest
  rw [hnearest.unique (isNearest_value hk.le), hten]

theorem nearest_le_infinity (num : ℕ) {den : ℕ} (hden : 0 < den) : nearest num den ≤ infinity :=
  (isNearest_nearest num hden).le_infinity

/-- Digits are rounded to the magnitude nearest to them. -/
theorem isNearest_nearest_one (digits : ℕ) : IsNearest digits (nearest digits 1) := by
  have h := isNearest_nearest digits one_pos
  rwa [Nat.cast_one, div_one] at h

/-- Without a power of ten, digits are rounded once. -/
theorem scale_zero (negative : Bool) (digits : ℕ) :
    scale negative digits 0 =
      if nearest digits 1 < infinity then some (.ofMagnitude negative (nearest digits 1))
      else none := by
  have hone : Binary64.mulMagnitude (nearest digits 1) (powerOfTen 0) = nearest digits 1 := by
    have h := isNearest_mulMagnitude (nearest digits 1) (powerOfTen 0)
    rw [value_powerOfTen (Nat.zero_le 22), Number.tenTo_zero, Nat.cast_one, mul_one] at h
    exact h.unique (isNearest_value (nearest_le_infinity digits one_pos))
  have hzero : (0 : ℤ) = .ofNat 0 := rfl
  delta scale
  rw [hzero]
  dsimp only
  rw [if_pos (Nat.zero_le largestPower), hone]

/-- Digits below `2 ^ 53`, and such digits with zeros in base two after them, are exact. -/
theorem value_nearest_of_exact {m j : ℕ} (hm : m < twoTo 53) (hj : j ≤ 971) :
    nearest (m * twoTo j) 1 < infinity ∧ value (nearest (m * twoTo j) 1) = (m * twoTo j : ℕ) := by
  obtain ⟨k, hk, hvalue⟩ := Number.Binary64.exists_value_eq hm hj
  have h := isNearest_nearest_one (m * twoTo j)
  rw [Nat.cast_mul, ← hvalue] at h
  have heq := h.unique (isNearest_value hk.le)
  exact ⟨heq ▸ hk, by rw [heq, hvalue, Nat.cast_mul]⟩

/-- The result of a scaling, as a number. -/
theorem scale_eq_of_scaled {negative : Bool} {digits k : ℕ} {exponent : ℤ}
    (h : (match exponent with
      | .ofNat e =>
        if e ≤ largestPower then Binary64.mulMagnitude (nearest digits 1) (powerOfTen e)
        else if nearest digits 1 = 0 then 0 else infinity
      | .negSucc e => divideByPower (nearest digits 1) (e + 1)) = k) :
    scale negative digits exponent =
      if k < infinity then some (.ofMagnitude negative k) else none := by
  subst h
  rfl

/-- **Exact digits at a small power of ten are rounded once.** -/
theorem scale_of_exact (negative : Bool) {digits : ℕ} {exponent : ℤ}
    (hexact : value (nearest digits 1) = digits) (hsmall : exponent.natAbs ≤ 22) :
    scale negative digits exponent =
      if (Decimal.mk digits exponent).magnitude < infinity
      then some (.ofMagnitude negative (Decimal.mk digits exponent).magnitude) else none := by
  have hnearest := (Decimal.mk digits exponent).isNearest_magnitude
  refine scale_eq_of_scaled ?_
  cases exponent with
  | ofNat e =>
    have hle : e ≤ 22 := hsmall
    have hproduct := isNearest_mulMagnitude (nearest digits 1) (powerOfTen e)
    rw [hexact, value_powerOfTen hle, ← Nat.cast_mul, ← Decimal.value_ofNat] at hproduct
    dsimp only
    rw [if_pos (show e ≤ largestPower by rw [largestPower]; omega)]
    exact hproduct.unique hnearest
  | negSucc e =>
    have hle : e + 1 ≤ 22 := hsmall
    have hpower : 0 < powerOfTen (e + 1) := by
      refine Nat.pos_of_ne_zero fun hzero => ?_
      have h := value_powerOfTen hle
      rw [hzero, Number.Binary64.value_zero] at h
      exact (Nat.cast_pos.2 (Number.tenTo_pos (e + 1))).ne h
    have hquotient := isNearest_divMagnitude (nearest digits 1) hpower
    rw [hexact, value_powerOfTen hle, ← Decimal.value_negSucc] at hquotient
    dsimp only
    rw [divideByPower, if_pos (show e + 1 ≤ largestPower by rw [largestPower]; omega)]
    exact hquotient.unique hnearest

end BenchSweep.Json
