import BenchSweep.Number.Shortest
import BenchSweep.Proofs.Number.Digits
import Mathlib.Algebra.Order.Field.Power
import Mathlib.Algebra.Order.Ring.Rat
import Mathlib.Tactic.NormNum

/-!
# Decimals and their magnitudes

The magnitude of a decimal is the nearest one to its value, also where the power of ten is not
formed. So decimals of one value have one magnitude, and zeros at the end of a coefficient do not
matter. The shortest decimal of a magnitude reads back to it.

## Why a magnitude is told by a value

A decimal is a coefficient and an exponent, and many decimals stand for one number. If the magnitude
is the nearest one to the value, it cannot depend on which of them was written, and results about
rounding (`BenchSweep.Proofs.Number.Rounding`) need no decimals. The powers of ten are not formed
where the exponent alone decides, since an exponent may be as large as its text; then the value is
past the largest number, or less than half the smallest one, and infinity or zero is the nearest
one.

## Main definitions

* `Decimal.value`: the rational number that a decimal stands for.

## Main results

* `Decimal.isNearest_magnitude`: the magnitude of a decimal is the nearest one to its value.
* `Decimal.magnitude_shortest`: the shortest decimal of a magnitude has that magnitude.
-/

namespace BenchSweep.Number

open Binary64 (IsNearest infinity isNearest_infinity isNearest_nearest isNearest_value
  isNearest_zero units units_mul_add unitsPerOne unitsPerOne_pos')

namespace Binary64

/-- Infinity is at two to the 1024th. -/
theorem value_infinity : value infinity = twoTo 1024 := by
  have hi : infinity = 2046 * twoTo 52 + twoTo 52 := by
    rw [infinity]
    ring
  have hle : twoTo 52 ≤ 2 * twoTo 52 := Nat.le_mul_of_pos_left _ two_pos
  rw [value, hi, units_mul_add hle (.inr le_rfl), div_eq_iff unitsPerOne_pos'.ne', unitsPerOne,
    ← Nat.cast_mul, twoTo_add, twoTo_add]

theorem value_one_magnitude : value 1 = 1 / unitsPerOne := by
  rw [value, units_of_lt (by decide), Nat.cast_one]

end Binary64

namespace Decimal

/-- The rational number that a decimal stands for. -/
def value (d : Decimal) : ℚ :=
  d.coefficient * 10 ^ d.exponent

theorem value_nonneg (d : Decimal) : 0 ≤ d.value :=
  mul_nonneg (Nat.cast_nonneg _) (zpow_nonneg (by norm_num) _)

theorem value_pos {d : Decimal} (h : 0 < d.coefficient) : 0 < d.value :=
  mul_pos (Nat.cast_pos.2 h) (zpow_pos (by norm_num) _)

theorem value_ofNat (n e : ℕ) : value ⟨n, .ofNat e⟩ = (n * tenTo e : ℕ) := by
  rw [value, tenTo_eq, Nat.cast_mul, Nat.cast_pow]
  exact congrArg _ (zpow_natCast _ _)

theorem value_negSucc (n e : ℕ) : value ⟨n, .negSucc e⟩ = n / tenTo (e + 1) := by
  rw [value, zpow_negSucc, tenTo_eq, Nat.cast_pow, div_eq_mul_inv]
  rfl

theorem twoTo_three_mul_le (n : ℕ) : twoTo (3 * n) ≤ tenTo n := by
  rw [twoTo_eq, pow_mul]
  exact Nat.pow_le_pow_left (by decide) n

/-- Where the power of ten is too large to be formed, the value is past infinity. -/
theorem value_infinity_le {n e : ℕ} (hn : 0 < n) (he : exponentLimit < e) :
    Binary64.value infinity ≤ (n * tenTo e : ℕ) := by
  rw [Binary64.value_infinity, Nat.cast_le]
  rw [exponentLimit] at he
  calc twoTo 1024 ≤ twoTo (3 * e) := twoTo_le_twoTo (by omega)
    _ ≤ tenTo e := twoTo_three_mul_le e
    _ ≤ n * tenTo e := Nat.le_mul_of_pos_left _ hn

/-- Where the power of ten is too small to be formed, the value is below half a unit. -/
theorem value_lt_one {n e : ℕ} (he : (decimal n).length + exponentLimit < e) :
    2 * (n / tenTo e : ℚ) < Binary64.value 1 := by
  have hpow : n * twoTo 1075 < tenTo e := by
    calc n * twoTo 1075 < tenTo (decimal n).length * twoTo 1075 :=
          Nat.mul_lt_mul_of_pos_right (lt_tenTo_length_decimal n) (twoTo_pos _)
      _ ≤ tenTo (decimal n).length * twoTo (3 * exponentLimit) :=
          Nat.mul_le_mul_left _ (twoTo_le_twoTo (by decide))
      _ ≤ tenTo (decimal n).length * tenTo exponentLimit :=
          Nat.mul_le_mul_left _ (twoTo_three_mul_le _)
      _ = tenTo ((decimal n).length + exponentLimit) := tenTo_add _ _
      _ ≤ tenTo e := tenTo_le_tenTo he.le
  have htwice : 2 * n * unitsPerOne < tenTo e := by
    rwa [mul_comm 2, mul_assoc, mul_comm 2, unitsPerOne, ← twoTo_succ]
  rw [Binary64.value_one_magnitude, mul_div, lt_div_iff₀ unitsPerOne_pos', div_mul_eq_mul_div,
    div_lt_one (Nat.cast_pos.2 (tenTo_pos e))]
  exact_mod_cast htwice

/-- **The magnitude of a decimal is the nearest one to its value.** -/
theorem isNearest_magnitude (d : Decimal) : IsNearest d.value d.magnitude := by
  obtain ⟨n, e⟩ := d
  rcases Nat.eq_zero_or_pos n with rfl | hn
  · rw [show value ⟨0, e⟩ = Binary64.value 0 by
      rw [value, Nat.cast_zero, zero_mul, Binary64.value_zero]]
    exact isNearest_value (Nat.zero_le _)
  unfold magnitude
  rw [if_neg hn.ne']
  cases e with
  | ofNat e =>
    rw [value_ofNat]
    dsimp only
    split
    · next he => exact isNearest_infinity (value_infinity_le hn he)
    · have h := isNearest_nearest (n * tenTo e) one_pos
      rwa [Nat.cast_one, div_one] at h
  | negSucc e =>
    rw [value_negSucc]
    dsimp only
    split
    · next he => exact isNearest_zero (value_lt_one he)
    · exact isNearest_nearest n (tenTo_pos _)

/-- Decimals of one value have one magnitude. -/
theorem magnitude_congr {d d' : Decimal} (h : d.value = d'.value) : d.magnitude = d'.magnitude :=
  d.isNearest_magnitude.unique (h ▸ d'.isNearest_magnitude)

theorem magnitude_le (d : Decimal) : d.magnitude ≤ infinity :=
  d.isNearest_magnitude.le_infinity

theorem coefficient_pos {d : Decimal} (h : 0 < d.magnitude) : 0 < d.coefficient := by
  refine Nat.pos_of_ne_zero fun hzero => ?_
  rw [magnitude, if_pos hzero] at h
  exact absurd h (lt_irrefl 0)

/-! ### Zeros at the end -/

/-- A power of ten counts as much in the exponent. -/
theorem value_mul_tenTo (n i : ℕ) (e : ℤ) : value ⟨n * tenTo i, e⟩ = value ⟨n, i + e⟩ := by
  rw [value, value, Nat.cast_mul, tenTo_eq, Nat.cast_pow, zpow_add₀ (by norm_num), zpow_natCast,
    mul_assoc]
  rfl

theorem value_stripZeros (n : ℕ) (e : ℤ) : (stripZeros n e).value = value ⟨n, e⟩ := by
  fun_induction stripZeros n e with
  | case1 n e h ih =>
    rw [ih, value, value, zpow_add_one₀ (by norm_num), ← mul_assoc, mul_right_comm]
    congr 1
    exact_mod_cast Nat.div_mul_cancel (Nat.dvd_of_mod_eq_zero h.2)
  | case2 n e h => rfl

/-! ### The shortest decimal -/

/-- Halves are decimals, with as many places as there are halvings. -/
theorem value_mul_five_pow (u n : ℕ) :
    value ⟨u * Nat.pow 5 n, -(n : ℤ)⟩ = u / twoTo n := by
  have hten : ((10 : ℕ) : ℚ) ^ n = twoTo n * Nat.pow 5 n := by
    rw [← Nat.cast_mul, ← Nat.cast_pow]
    exact congrArg Nat.cast (Nat.mul_pow 2 5 n)
  have hfive : (Nat.pow 5 n : ℚ) ≠ 0 := Nat.cast_ne_zero.2 (pow_pos (by decide) n).ne'
  rw [value, zpow_neg, zpow_natCast, ← div_eq_mul_inv, Nat.cast_mul, ← Nat.cast_ofNat (n := 10),
    hten, mul_div_mul_right _ _ hfive]

theorem value_exactDecimal (k : ℕ) : (exactDecimal k).value = Binary64.value k := by
  -- the power of five is kept as it stands, and not evaluated
  obtain ⟨n, hn⟩ : ∃ n : ℕ, n = 1074 := ⟨_, rfl⟩
  have he : (-1074 : ℤ) = -(n : ℤ) := by
    rw [hn]
    rfl
  rw [exactDecimal, he, Binary64.value, unitsPerOne, ← hn, value_mul_five_pow]

theorem magnitude_of_onGrid {tie : Tie} {k num den : ℕ} {e : ℤ} {d : Decimal}
    (h : onGrid tie k num den e = some d) : d.magnitude = k := by
  simp only [onGrid] at h
  split at h
  · cases h
  · next hbelow _ => exact Option.some.inj h ▸ of_decide_eq_true hbelow
  · next _ habove => exact Option.some.inj h ▸ of_decide_eq_true habove
  · next hbelow habove =>
    split at h
    · exact Option.some.inj h ▸ of_decide_eq_true hbelow
    split at h
    · exact Option.some.inj h ▸ of_decide_eq_true habove
    split at h
    · exact Option.some.inj h ▸ of_decide_eq_true habove
    · obtain rfl := Option.some.inj h
      split
      · exact of_decide_eq_true hbelow
      · exact of_decide_eq_true habove

/-- **The shortest decimal of a magnitude reads back to it.** -/
theorem magnitude_shortest (tie : Tie) {k : ℕ} (hk : k < infinity) :
    (shortest tie k).magnitude = k := by
  have hexact : (exactDecimal k).magnitude = k := by
    have h := (exactDecimal k).isNearest_magnitude
    rw [value_exactDecimal] at h
    exact h.unique (isNearest_value hk.le)
  simp only [shortest]
  rw [magnitude_congr (value_stripZeros _ _)]
  cases hfound : (List.range mostDigits).findSome? _ with
  | none => exact hexact
  | some d =>
    obtain ⟨n, -, hn⟩ := List.exists_of_findSome?_eq_some hfound
    exact magnitude_of_onGrid hn

theorem coefficient_shortest_pos (tie : Tie) {k : ℕ} (hpos : 0 < k) (hk : k < infinity) :
    0 < (shortest tie k).coefficient :=
  coefficient_pos ((magnitude_shortest tie hk).symm ▸ hpos)

end Decimal

end BenchSweep.Number
