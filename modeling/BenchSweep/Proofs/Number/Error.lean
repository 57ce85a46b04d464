import BenchSweep.Proofs.Number.Decimal

/-!
# The error of a rounding

One rounding changes a number by a factor close to one, and by half a unit more where neighbours are
a unit apart. In the other direction, numbers that differ by a factor close to one have nearest
magnitudes that are few steps apart. Factors of several roundings are multiplied.

## Why closeness is a factor

The steps between magnitudes grow with the numbers, so the error of a rounding is a part of the
number and not a fixed amount. `IsClose` has the factor as its argument, so that it can be composed:
the factor of several roundings is the product of theirs. Only at the end is a factor turned into a
number of steps, by `isWithin_of_isClose`.

## Scope

Small numbers are an exception on one side. Below one, a rounding may be off by half a unit in
addition to the factor, where a unit is the smallest number above zero; `IsNearest.abs_sub_le` has
both terms.

## Main definitions

* `IsClose`: two numbers differ at most by a factor.
* `Binary64.IsWithin`: two magnitudes are at most so many steps apart.

## Main results

* `Binary64.IsNearest.abs_sub_le`: the error of a rounding.
* `Binary64.isClose_value`: from one on, a rounding is within a factor.
* `Binary64.IsNearest.le_add`, `Binary64.isWithin_of_isClose`: close numbers have close magnitudes.
-/

namespace BenchSweep.Number

/-! ### Closeness -/

/-- Two numbers differ at most by the factor `c`. -/
def IsClose (c x y : ℚ) : Prop :=
  x ≤ c * y ∧ y ≤ c * x

theorem IsClose.symm {c x y : ℚ} (h : IsClose c x y) : IsClose c y x :=
  ⟨h.2, h.1⟩

theorem IsClose.trans {c d x y z : ℚ} (hc : 0 ≤ c) (hd : 0 ≤ d) (h : IsClose c x y)
    (h' : IsClose d y z) : IsClose (c * d) x z where
  left := h.1.trans (mul_assoc c d z ▸ mul_le_mul_of_nonneg_left h'.1 hc)
  right := by
    rw [mul_comm c, mul_assoc]
    exact h'.2.trans (mul_le_mul_of_nonneg_left h.2 hd)

theorem IsClose.mono {c d x y : ℚ} (hx : 0 ≤ x) (hy : 0 ≤ y) (hcd : c ≤ d) (h : IsClose c x y) :
    IsClose d x y :=
  ⟨h.1.trans (mul_le_mul_of_nonneg_right hcd hy), h.2.trans (mul_le_mul_of_nonneg_right hcd hx)⟩

/-- Quotients of close numbers are close. -/
theorem IsClose.div {c d x y z w : ℚ} (hx : 0 ≤ x) (hy : 0 ≤ y) (hz : 0 < z) (hw : 0 < w)
    (h : IsClose c x y) (h' : IsClose d z w) : IsClose (c * d) (x / z) (y / w) := by
  constructor
  · rw [div_le_iff₀ hz]
    calc x ≤ c * y := h.1
      _ = c * y / w * w := (div_mul_cancel₀ _ hw.ne').symm
      _ ≤ c * y / w * (d * z) :=
          mul_le_mul_of_nonneg_left h'.2 (div_nonneg (hx.trans h.1) hw.le)
      _ = c * d * (y / w) * z := by ring
  · rw [div_le_iff₀ hw]
    calc y ≤ c * x := h.2
      _ = c * x / z * z := (div_mul_cancel₀ _ hz.ne').symm
      _ ≤ c * x / z * (d * w) :=
          mul_le_mul_of_nonneg_left h'.1 (div_nonneg (hy.trans h.2) hz.le)
      _ = c * d * (x / z) * w := by ring

namespace Binary64

/-! ### The error of a rounding -/

theorem gap_mul_le_add (k : ℕ) : gap k * twoTo 52 ≤ units k + twoTo 52 := by
  rcases Nat.lt_or_ge k (twoTo 52) with hlt | hge
  · rw [gap, Nat.div_eq_of_lt hlt, Nat.zero_sub, twoTo_zero, Nat.one_mul]
    exact Nat.le_add_left _ _
  · exact (gap_mul_le hge).trans (Nat.le_add_right _ _)

theorem half_step_le {g q b w u : ℚ} (hw : 0 < w) (hu : 0 < u) (h : g * w ≤ q * u + b) :
    g / u / 2 ≤ q / (w * 2) + b / (w * 2 * u) := by
  have hleft : g / u / 2 = g * w / (w * 2 * u) := by field_simp
  have hright : q / (w * 2) + b / (w * 2 * u) = (q * u + b) / (w * 2 * u) := by field_simp
  rw [hleft, hright]
  exact div_le_div_of_nonneg_right h (by positivity)

theorem twoTo_fiftyThree : (twoTo 53 : ℚ) = twoTo 52 * 2 := by
  rw [twoTo_succ, Nat.cast_mul, Nat.cast_ofNat]

theorem twoTo_fiftyThree_eq : (twoTo 53 : ℚ) = 9007199254740992 := by
  rw [twoTo_eq]
  norm_num

/-- The error of a rounding, given what a step to a neighbour is at most. -/
theorem IsNearest.abs_sub_le_of_gap_le {q : ℚ} {k b : ℕ} (h : IsNearest q k) (hk : k < infinity)
    (hq : 0 ≤ q) (hgap : ∀ j, j = k ∨ j + 1 = k → gap j * twoTo 52 ≤ units j + b) :
    |value k - q| ≤ q / twoTo 53 + b / (twoTo 53 * unitsPerOne) := by
  have hhalf : ∀ j, j = k ∨ j + 1 = k → value j ≤ q →
      (gap j / unitsPerOne : ℚ) / 2 ≤ q / twoTo 53 + b / (twoTo 53 * unitsPerOne) := by
    intro j hj hle
    have hgap' : (gap j * twoTo 52 : ℚ) ≤ units j + b := by exact_mod_cast hgap j hj
    have hunits : (units j : ℚ) ≤ q * unitsPerOne := by
      rw [← value_mul_unitsPerOne]
      exact mul_le_mul_of_nonneg_right hle unitsPerOne_pos'.le
    rw [twoTo_fiftyThree]
    exact half_step_le (Nat.cast_pos.2 (twoTo_pos 52)) unitsPerOne_pos' (by linarith)
  have hbound : 0 ≤ q / twoTo 53 + b / (twoTo 53 * unitsPerOne : ℚ) :=
    add_nonneg (div_nonneg hq (Nat.cast_nonneg _))
      (div_nonneg (Nat.cast_nonneg _) (mul_nonneg (Nat.cast_nonneg _) (Nat.cast_nonneg _)))
  rw [abs_le]
  constructor
  · -- below the number: half a step up is enough
    have hup := h.le_upper hk
    rw [value_succ] at hup
    rcases le_total (value k) q with hle | hle
    · linarith [hhalf k (.inl rfl) hle]
    · linarith
  · -- above the number: half a step down is enough
    cases k with
    | zero =>
      rw [value_zero]
      linarith
    | succ j =>
      have hlow := h.lower_le j rfl
      have hj : value j ≤ q := by linarith [strictMono_value (Nat.lt_succ_self j)]
      rw [value_succ] at hlow ⊢
      linarith [hhalf j (.inr rfl) hj]

/-- **The error of a rounding**: a part in `2 ^ 53`, and half a unit. -/
theorem IsNearest.abs_sub_le {q : ℚ} {k : ℕ} (h : IsNearest q k) (hk : k < infinity)
    (hq : 0 ≤ q) : |value k - q| ≤ q / twoTo 53 + 1 / (2 * unitsPerOne) := by
  have herror := h.abs_sub_le_of_gap_le hk hq fun j _ => gap_mul_le_add j
  have hpos : (twoTo 52 : ℚ) ≠ 0 := Nat.cast_ne_zero.2 (twoTo_pos 52).ne'
  have hhalf : (twoTo 52 / (twoTo 53 * unitsPerOne) : ℚ) = 1 / (2 * unitsPerOne) := by
    rw [twoTo_fiftyThree, mul_assoc, div_mul_cancel_left₀ hpos, one_div]
  rwa [hhalf] at herror

theorem value_one : value one = 1 := by
  have hone : one = 1022 * twoTo 52 + twoTo 52 := by
    rw [one]
    ring
  have hle : twoTo 52 ≤ 2 * twoTo 52 := Nat.le_mul_of_pos_left _ two_pos
  rw [value, hone, units_mul_add hle (.inr le_rfl), twoTo_add, unitsPerOne]
  exact div_self (Nat.cast_ne_zero.2 (twoTo_pos 1074).ne')

/-- The factor of one rounding. -/
def roundingFactor : ℚ :=
  9007199254740992 / 9007199254740991

/-- From one on, a rounding is within a factor. -/
theorem isClose_value {q : ℚ} {k : ℕ} (h : IsNearest q k) (hk : k < infinity) (hq : 1 ≤ q) :
    IsClose roundingFactor (value k) q := by
  have hone : one ≤ k := (isNearest_value (by decide)).le_of_le h (value_one.trans_le hq)
  have herror := h.abs_sub_le_of_gap_le (b := 0) hk (by linarith) fun j hj => by
    rw [Nat.add_zero]
    have hlt : twoTo 52 < one := by decide
    exact gap_mul_le (by omega)
  rw [Nat.cast_zero, zero_div, add_zero, twoTo_fiftyThree_eq, abs_le] at herror
  rw [IsClose, roundingFactor]
  constructor <;> linarith

/-! ### Steps between magnitudes -/

theorem gap_le_gap {j k : ℕ} (h : j ≤ k) : gap j ≤ gap k :=
  twoTo_le_twoTo (Nat.sub_le_sub_right (Nat.div_le_div_right h) 1)

theorem units_add_mul_gap_le (k n : ℕ) : units k + n * gap k ≤ units (k + n) := by
  induction n with
  | zero => rw [Nat.zero_mul, Nat.add_zero, Nat.add_zero]
  | succ n ih =>
    rw [← Nat.add_assoc, units_succ, Nat.succ_mul]
    have := gap_le_gap (Nat.le_add_right k n)
    omega

theorem value_add_le (k n : ℕ) : value k + n * (gap k / unitsPerOne : ℚ) ≤ value (k + n) := by
  rw [value, value, ← mul_div_assoc, ← add_div]
  refine div_le_div_of_nonneg_right ?_ unitsPerOne_pos'.le
  exact_mod_cast units_add_mul_gap_le k n

/-- A magnitude is less than `2 ^ 53` of its steps. -/
theorem units_lt (k : ℕ) : units k + gap k ≤ twoTo 53 * gap k := by
  have hsucc : twoTo 53 = twoTo 52 * 2 := twoTo_succ 52
  rcases Nat.lt_or_ge k (twoTo 52) with hlt | hge
  · rw [gap, Nat.div_eq_of_lt hlt, Nat.zero_sub, twoTo_zero, units_of_lt hlt]
    omega
  · have hmod := Nat.mod_lt k (twoTo_pos 52)
    rw [units, if_neg (Nat.not_lt.2 hge), gap, ← Nat.succ_mul]
    exact Nat.mul_le_mul_right _ (by omega)

theorem value_succ_le (k : ℕ) : value (k + 1) ≤ twoTo 53 * (gap k / unitsPerOne) := by
  rw [value_succ, value, ← add_div, ← mul_div_assoc]
  refine div_le_div_of_nonneg_right ?_ unitsPerOne_pos'.le
  exact_mod_cast units_lt k

theorem IsNearest.div_lt {q : ℚ} {k : ℕ} (h : IsNearest q k) (hk : k < infinity) :
    q / twoTo 53 < gap k / unitsPerOne := by
  have hup := h.le_upper hk
  have hgap : (0 : ℚ) < gap k / unitsPerOne :=
    div_pos (Nat.cast_pos.2 (gap_pos k)) unitsPerOne_pos'
  have hsucc := value_succ_le k
  rw [value_succ] at hup hsucc
  rw [div_lt_iff₀' (Nat.cast_pos.2 (twoTo_pos 53))]
  linarith

/-- **A number that is little above another has a magnitude that is few steps above.** -/
theorem IsNearest.le_add {q q' a b : ℚ} {k k' n : ℕ} (h : IsNearest q k) (h' : IsNearest q' k')
    (ha : 0 ≤ a) (hb : 0 ≤ b) (hn : a + b < n)
    (hle : q ≤ q' + a * (q' / twoTo 53) + b / unitsPerOne) : k ≤ k' + n := by
  by_contra hlt
  rw [not_le] at hlt
  have hk' : k' < infinity := by
    have := h.le_infinity
    omega
  obtain ⟨j, rfl⟩ : ∃ j, k = k' + n + 1 + j := ⟨k - (k' + n + 1), by omega⟩
  have hlow := h.lower_le (k' + n + j) (by omega)
  have hup := h'.le_upper hk'
  have hstep := h'.div_lt hk'
  obtain ⟨g, hg⟩ : ∃ g : ℚ, g = gap k' / unitsPerOne := ⟨_, rfl⟩
  have hunit : 1 / unitsPerOne ≤ g := by
    rw [hg]
    exact div_le_div_of_nonneg_right (Nat.one_le_cast.2 (gap_pos k')) unitsPerOne_pos'.le
  have hfirst : value k' + n * g ≤ value (k' + n + j) :=
    (hg ▸ value_add_le k' n).trans (strictMono_value.monotone (by omega))
  have hsecond : value (k' + 1) + n * g ≤ value (k' + n + 1 + j) := by
    have hone := value_add_le (k' + 1) n
    have hgap : g ≤ gap (k' + 1) / unitsPerOne := by
      rw [hg]
      exact div_le_div_of_nonneg_right (Nat.cast_le.2 (gap_le_gap (Nat.le_succ k')))
        unitsPerOne_pos'.le
    have hmul := mul_le_mul_of_nonneg_left hgap (Nat.cast_nonneg (α := ℚ) n)
    have hmono : value (k' + 1 + n) ≤ value (k' + n + 1 + j) :=
      strictMono_value.monotone (by omega)
    linarith
  have hg0 : 0 < g := (one_div_pos.2 unitsPerOne_pos').trans_le hunit
  have hpart : a * (q' / twoTo 53) ≤ a * g := mul_le_mul_of_nonneg_left (hg ▸ hstep.le) ha
  have hrest : b / unitsPerOne ≤ b * g := by
    rw [div_eq_mul_one_div]
    exact mul_le_mul_of_nonneg_left hunit hb
  have htotal : (a + b) * g < n * g := mul_lt_mul_of_pos_right hn hg0
  linarith

/-- Magnitudes that are at most `n` steps apart. -/
def IsWithin (n j k : ℕ) : Prop :=
  j ≤ k + n ∧ k ≤ j + n

theorem IsWithin.mono {m n j k : ℕ} (h : IsWithin m j k) (hmn : m ≤ n) : IsWithin n j k :=
  ⟨h.1.trans (Nat.add_le_add_left hmn k), h.2.trans (Nat.add_le_add_left hmn j)⟩

/-- **Close numbers have magnitudes that are few steps apart.** -/
theorem isWithin_of_isClose {q q' a : ℚ} {k k' n : ℕ} (h : IsNearest q k) (h' : IsNearest q' k')
    (ha : 0 ≤ a) (hn : a < n) (hclose : IsClose (1 + a / twoTo 53) q q') : IsWithin n k k' := by
  have hexpand (x : ℚ) : (1 + a / twoTo 53) * x = x + a * (x / twoTo 53) + 0 / unitsPerOne := by
    ring
  exact ⟨h.le_add h' ha le_rfl (by rwa [add_zero]) (hexpand q' ▸ hclose.1),
    h'.le_add h ha le_rfl (by rwa [add_zero]) (hexpand q ▸ hclose.2)⟩

end Binary64

end BenchSweep.Number
