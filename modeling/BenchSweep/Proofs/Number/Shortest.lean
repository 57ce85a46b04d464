import BenchSweep.Proofs.Number.Decimal

/-!
# How short the shortest decimal is

The search for the shortest decimal of a magnitude tries one grid of decimals after the other, from
the coarsest on. It ends on a grid at the latest where some point of the grid reads back: then one
of the two neighbours of the exact value does. So the magnitude nearest to a decimal of few digits
and places has a shortest decimal of few digits and places.

## Scope

The bound is for numbers that are nearest to a decimal of at most fifteen digits and twenty-two
places. It says that the search cannot do worse than this decimal; it may do better. That nothing at
all is shorter than its result is shown in `BenchSweep.Proofs.Number.Fewest`, with another argument.

## Why two neighbours are enough

The decimals that read back to a magnitude lie in an interval around its exact value. If any point
of a grid is in it, then so is one of the two points next to the exact value, because the interval
contains everything between them and this point (`Decimal.magnitude_eq_of_between`). So the search
need not look at more than these, and no property of the interval but this one is used.

## Main definitions

* `floorSteps`: a quotient in steps of a power of ten, rounded down.

## Main results

* `exists_onGrid`: a grid with a point that reads back is not passed over.
* `shortest_bounds`: the digits and the places of a shortest decimal.
-/

namespace BenchSweep.Number

open Binary64 (IsNearest infinity isNearest_nearest isNearest_value nearest units unitsPerOne
  unitsPerOne_pos)

/-! ### The leading digit -/

theorem tenTo_pred_length_le {n : ℕ} (hn : 0 < n) : tenTo ((decimal n).length - 1) ≤ n := by
  by_contra hlt
  rw [not_le] at hlt
  rcases Nat.eq_zero_or_pos ((decimal n).length - 1) with hzero | hpos
  · rw [hzero, tenTo_zero] at hlt
    omega
  · have := (length_decimal_le_iff hpos).2 hlt
    have := length_decimal_pos n
    omega

theorem zpow_ten_eq (n : ℕ) : (10 : ℚ) ^ (n : ℤ) = tenTo n := by
  rw [zpow_natCast, tenTo_eq, Nat.cast_pow, Nat.cast_ofNat]

theorem zpow_ten_pos (e : ℤ) : (0 : ℚ) < 10 ^ e :=
  zpow_pos (by norm_num) e

/-- The leading exponent is that of the first digit that is not zero. -/
theorem leadingExponent_spec {num den : ℕ} (hnum : 0 < num) (hden : 0 < den) :
    (10 : ℚ) ^ leadingExponent num den ≤ num / den ∧
      (num / den : ℚ) < 10 ^ (leadingExponent num den + 1) := by
  have hden' : (0 : ℚ) < den := Nat.cast_pos.2 hden
  unfold leadingExponent
  split
  · next hle =>
    -- the digits of the whole part
    have hpos : 0 < num / den := Nat.div_pos hle hden
    have hlow := tenTo_pred_length_le hpos
    have hup := lt_tenTo_length_decimal (num / den)
    have hlength := length_decimal_pos (num / den)
    rw [decimal] at hlow hup hlength
    obtain ⟨n, hn⟩ := Nat.exists_eq_add_one_of_ne_zero hlength.ne'
    rw [hn] at hlow hup ⊢
    have he : ((n + 1 : ℕ) : ℤ) - 1 = n := by omega
    rw [he, zpow_ten_eq, ← Nat.cast_succ, zpow_ten_eq, le_div_iff₀ hden', div_lt_iff₀ hden']
    constructor
    · exact_mod_cast (Nat.le_div_iff_mul_le hden).1 hlow
    · exact_mod_cast (Nat.div_lt_iff_lt_mul hden).1 hup
  · next hlt =>
    -- the zeros in front of the first digit
    rw [not_le] at hlt
    have hpos : 0 < (den - 1) / num := Nat.div_pos (by omega) hnum
    have hlow := tenTo_pred_length_le hpos
    have hup := lt_tenTo_length_decimal ((den - 1) / num)
    have hlength := length_decimal_pos ((den - 1) / num)
    rw [decimal] at hlow hup hlength
    obtain ⟨n, hn⟩ := Nat.exists_eq_add_one_of_ne_zero hlength.ne'
    rw [hn] at hlow hup ⊢
    have he : -((n + 1 : ℕ) : ℤ) + 1 = -(n : ℤ) := by omega
    have hten (i : ℕ) : (0 : ℚ) < tenTo i := Nat.cast_pos.2 (tenTo_pos i)
    rw [he, zpow_neg, zpow_neg, zpow_ten_eq, zpow_ten_eq, le_div_iff₀ hden', div_lt_iff₀ hden',
      inv_mul_le_iff₀ (hten _), lt_inv_mul_iff₀ (hten _)]
    have hlow' := (Nat.le_div_iff_mul_le hnum).1 hlow
    have hup' := (Nat.div_lt_iff_lt_mul hnum).1 hup
    rw [Nat.add_sub_cancel] at hlow'
    constructor
    · exact_mod_cast (show den ≤ tenTo (n + 1) * num by omega)
    · exact_mod_cast (show tenTo n * num < den by omega)

/-! ### Points of a grid -/

/-- A quotient in steps of `10 ^ exponent`, rounded down. -/
def floorSteps (num den : ℕ) (exponent : ℤ) : ℕ :=
  (inSteps num den exponent).1 / (inSteps num den exponent).2

theorem inSteps_pos (num : ℕ) {den : ℕ} (hden : 0 < den) (e : ℤ) : 0 < (inSteps num den e).2 :=
  Nat.mul_pos hden (tenTo_pos _)

theorem inSteps_div (num : ℕ) {den : ℕ} (hden : 0 < den) (e : ℤ) :
    ((inSteps num den e).1 / (inSteps num den e).2 : ℚ) = num / den / 10 ^ e := by
  have hden' : (den : ℚ) ≠ 0 := Nat.cast_ne_zero.2 hden.ne'
  have hten (i : ℕ) : (tenTo i : ℚ) ≠ 0 := Nat.cast_ne_zero.2 (tenTo_pos i).ne'
  rw [inSteps]
  obtain ⟨n, rfl | rfl⟩ := e.eq_nat_or_neg
  · rw [zpow_ten_eq, show (-(n : ℤ)).toNat = 0 by omega, Int.toNat_natCast, tenTo_zero, Nat.mul_one,
      Nat.cast_mul, div_div]
  · rw [zpow_neg, zpow_ten_eq, neg_neg, Int.toNat_natCast, show (-(n : ℤ)).toNat = 0 by omega,
      tenTo_zero, Nat.mul_one, Nat.cast_mul, div_inv_eq_mul, div_mul_eq_mul_div]

/-- A quotient is between two points of a grid. -/
theorem floorSteps_spec (num : ℕ) {den : ℕ} (hden : 0 < den) (e : ℤ) :
    Decimal.value ⟨floorSteps num den e, e⟩ ≤ num / den ∧
      (num / den : ℚ) < Decimal.value ⟨floorSteps num den e + 1, e⟩ := by
  have hpos := inSteps_pos num hden e
  have hpos' : (0 : ℚ) < (inSteps num den e).2 := Nat.cast_pos.2 hpos
  rw [Decimal.value, Decimal.value, ← le_div_iff₀ (zpow_ten_pos e), ← div_lt_iff₀ (zpow_ten_pos e),
    ← inSteps_div num hden, le_div_iff₀ hpos', div_lt_iff₀ hpos', floorSteps]
  constructor
  · exact_mod_cast Nat.div_mul_le_self _ _
  · exact_mod_cast Nat.lt_mul_of_div_lt (Nat.lt_succ_self _) hpos

theorem onGrid_eq_or {tie : Tie} {k num den : ℕ} {e : ℤ} {d : Decimal}
    (h : onGrid tie k num den e = some d) :
    d = ⟨floorSteps num den e, e⟩ ∨ d = ⟨floorSteps num den e + 1, e⟩ := by
  simp only [onGrid] at h
  rw [floorSteps]
  split at h
  · cases h
  · exact .inl (Option.some.inj h).symm
  · exact .inr (Option.some.inj h).symm
  · split at h
    · exact .inl (Option.some.inj h).symm
    split at h
    · exact .inr (Option.some.inj h).symm
    split at h
    · exact .inr (Option.some.inj h).symm
    · split at h
      · exact .inl (Option.some.inj h).symm
      · exact .inr (Option.some.inj h).symm

/-- If a neighbour reads back, the grid is not passed over. -/
theorem exists_onGrid_of_magnitude (tie : Tie) {k num den : ℕ} {e : ℤ}
    (h : (Decimal.mk (floorSteps num den e) e).magnitude = k ∨
      (Decimal.mk (floorSteps num den e + 1) e).magnitude = k) :
    ∃ d, onGrid tie k num den e = some d := by
  rw [← Option.isSome_iff_exists]
  simp only [onGrid]
  split
  · next hbelow habove =>
    exact (h.elim (of_decide_eq_false hbelow) (of_decide_eq_false habove)).elim
  · rfl
  · rfl
  · split
    · rfl
    split
    · rfl
    split <;> rfl

theorem Decimal.value_le_value {c c' : ℕ} (h : c ≤ c') (e : ℤ) : value ⟨c, e⟩ ≤ value ⟨c', e⟩ :=
  mul_le_mul_of_nonneg_right (Nat.cast_le.2 h) (zpow_ten_pos e).le

/-- What is between two numbers with the same nearest magnitude has this one too. -/
theorem Decimal.magnitude_eq_of_between {d : Decimal} {q q' : ℚ} {k : ℕ} (hq : IsNearest q k)
    (hq' : IsNearest q' k) (hle : q ≤ d.value) (hle' : d.value ≤ q') : d.magnitude = k :=
  Nat.le_antisymm (d.isNearest_magnitude.le_of_le hq' hle') (hq.le_of_le d.isNearest_magnitude hle)

/-- **A grid with a point that reads back is not passed over.** -/
theorem exists_onGrid (tie : Tie) {k c : ℕ} {e : ℤ} (hk : k < infinity)
    (h : (Decimal.mk c e).magnitude = k) : ∃ d, onGrid tie k (units k) unitsPerOne e = some d := by
  have hpoint : IsNearest (Decimal.value ⟨c, e⟩) k := h ▸ Decimal.isNearest_magnitude ⟨c, e⟩
  have hself : IsNearest (units k / unitsPerOne) k := isNearest_value hk.le
  obtain ⟨hbelow, habove⟩ := floorSteps_spec (units k) unitsPerOne_pos e
  refine exists_onGrid_of_magnitude tie ?_
  rcases Nat.lt_or_ge (floorSteps (units k) unitsPerOne e) c with hlt | hle
  · exact .inr
      (Decimal.magnitude_eq_of_between hself hpoint habove.le (Decimal.value_le_value hlt e))
  · exact .inl (Decimal.magnitude_eq_of_between hpoint hself (Decimal.value_le_value hle e) hbelow)

/-! ### The search -/

/-- The search ends at the first grid that is not passed over. -/
theorem exists_shortest_eq (tie : Tie) {k n : ℕ} {d : Decimal} (hn : n < mostDigits)
    (h : onGrid tie k (units k) unitsPerOne (leadingExponent (units k) unitsPerOne - n) = some d) :
    ∃ i ≤ n, ∃ d',
      onGrid tie k (units k) unitsPerOne (leadingExponent (units k) unitsPerOne - i) = some d' ∧
        shortest tie k = Decimal.stripZeros d'.coefficient d'.exponent := by
  simp only [shortest]
  cases hfound : (List.range mostDigits).findSome? fun (i : ℕ) =>
      onGrid tie k (units k) unitsPerOne (leadingExponent (units k) unitsPerOne - i) with
  | none =>
    rw [List.findSome?_eq_none_iff] at hfound
    rw [hfound n (List.mem_range.2 hn)] at h
    cases h
  | some d' =>
    obtain ⟨tried, i, left, hrange, hi, htried⟩ := List.findSome?_eq_some_iff.1 hfound
    refine ⟨i, ?_, d', hi, rfl⟩
    have hmem : n ∈ tried ++ i :: left := hrange ▸ List.mem_range.2 hn
    have hsorted : (tried ++ i :: left).Pairwise (· < ·) := hrange ▸ List.pairwise_lt_range
    rw [List.mem_append, List.mem_cons] at hmem
    rcases hmem with hmem | rfl | hmem
    · rw [htried n hmem] at h
      cases h
    · exact le_rfl
    · exact ((List.pairwise_cons.1 (List.pairwise_append.1 hsorted).2.1).1 n hmem).le

theorem Decimal.stripZeros_bounds (c : ℕ) (e : ℤ) :
    (stripZeros c e).coefficient ≤ c ∧ e ≤ (stripZeros c e).exponent := by
  fun_induction stripZeros c e with
  | case1 c e h ih => exact ⟨ih.1.trans (Nat.div_le_self c 10), by omega⟩
  | case2 c e h => exact ⟨le_rfl, le_rfl⟩

/-- Steps of the grid of so many digits are fewer than the power of ten. -/
theorem floorSteps_lt {num den : ℕ} (hnum : 0 < num) (hden : 0 < den) (n : ℕ) :
    floorSteps num den (leadingExponent num den - n) < tenTo (n + 1) := by
  obtain ⟨-, hup⟩ := leadingExponent_spec hnum hden
  obtain ⟨hbelow, -⟩ := floorSteps_spec num hden (leadingExponent num den - n)
  have h := hbelow.trans_lt hup
  have he : leadingExponent num den + 1 = ((n + 1 : ℕ) : ℤ) + (leadingExponent num den - n) := by
    push_cast
    ring
  rw [Decimal.value, he, zpow_add₀ (by norm_num), zpow_ten_eq] at h
  exact_mod_cast lt_of_mul_lt_mul_right h (zpow_ten_pos _).le

/-- **The shortest decimal has no more digits and places than a grid that is not passed over.** -/
theorem shortest_bounds (tie : Tie) {k n c : ℕ} (hpos : 0 < k) (hk : k < infinity)
    (hn : n < mostDigits)
    (h : (Decimal.mk c (leadingExponent (units k) unitsPerOne - n)).magnitude = k) :
    (shortest tie k).coefficient ≤ tenTo (n + 1) ∧
      leadingExponent (units k) unitsPerOne - n ≤ (shortest tie k).exponent := by
  obtain ⟨d, hd⟩ := exists_onGrid tie hk h
  obtain ⟨i, hi, d', hd', hshortest⟩ := exists_shortest_eq tie hn hd
  have hunits : 0 < units k := Binary64.units_zero ▸ Binary64.strictMono_units hpos
  have hfloor := floorSteps_lt hunits unitsPerOne_pos i
  have hten : tenTo (i + 1) ≤ tenTo (n + 1) := tenTo_le_tenTo (by omega)
  obtain ⟨hcoefficient, hexponent⟩ := Decimal.stripZeros_bounds d'.coefficient d'.exponent
  rw [hshortest]
  rcases onGrid_eq_or hd' with rfl | rfl
  · exact ⟨by dsimp only at hcoefficient ⊢; omega, by dsimp only at hexponent ⊢; omega⟩
  · exact ⟨by dsimp only at hcoefficient ⊢; omega, by dsimp only at hexponent ⊢; omega⟩

/-! ### Numbers of few digits -/

/-- The magnitude nearest to `10 ^ (-22)` is above it. -/
theorem le_value_nearest_tenTo : (10 : ℚ) ^ (-22 : ℤ) ≤ Binary64.value (nearest 1 (tenTo 22)) := by
  have h : unitsPerOne ≤ units (nearest 1 (tenTo 22)) * tenTo 22 := by decide +kernel
  have hten : (10 : ℚ) ^ (-22 : ℤ) = 1 / tenTo 22 := by
    rw [one_div, ← zpow_ten_eq, ← zpow_neg]
    rfl
  rw [hten, Binary64.value, div_le_div_iff₀ (Nat.cast_pos.2 (tenTo_pos 22))
    (Nat.cast_pos.2 unitsPerOne_pos), one_mul]
  exact_mod_cast h

section FewDigits

variable {m places k : ℕ}

/-- The first digit of a number of few places stands in one of them. -/
theorem le_leadingExponent (hm : 0 < m) (hplaces : places ≤ 22)
    (h : IsNearest (m / tenTo places) k) :
    0 < k ∧ -22 ≤ leadingExponent (units k) unitsPerOne := by
  have hquotient : ((1 : ℕ) / tenTo 22 : ℚ) ≤ m / tenTo places :=
    div_le_div₀ (Nat.cast_nonneg m) (Nat.cast_le.2 hm) (Nat.cast_pos.2 (tenTo_pos places))
      (Nat.cast_le.2 (tenTo_le_tenTo hplaces))
  have hle := (isNearest_nearest 1 (tenTo_pos 22)).le_of_le h hquotient
  have hvalue := le_value_nearest_tenTo.trans (Binary64.strictMono_value.monotone hle)
  have hk : 0 < k := by
    refine Nat.pos_of_ne_zero fun hzero => ?_
    rw [hzero, Binary64.value_zero] at hvalue
    exact absurd hvalue (not_le.2 (zpow_ten_pos _))
  refine ⟨hk, ?_⟩
  have hunits : 0 < units k := Binary64.units_zero ▸ Binary64.strictMono_units hk
  have hlt := hvalue.trans_lt (leadingExponent_spec hunits unitsPerOne_pos).2
  have := (zpow_lt_zpow_iff_right₀ (by norm_num : (1 : ℚ) < 10)).1 hlt
  omega

theorem Decimal.value_tenTo (n : ℕ) (e : ℤ) : value ⟨tenTo n, e⟩ = 10 ^ (n + e) := by
  rw [value, zpow_add₀ (by norm_num), zpow_ten_eq]

/-- The grid of few digits that has a point that reads back: the power of ten of the first digit, if
it is past the number, or if the places of the number end before it; else the places of the
number. -/
theorem exists_magnitude_eq (hm : 0 < m) (hdigits : m < tenTo 15) (hk : k < infinity)
    (h : IsNearest (Decimal.value ⟨m, -(places : ℤ)⟩) k) {lead : ℤ}
    (hlow : 10 ^ lead ≤ Binary64.value k) (hup : Binary64.value k < 10 ^ (lead + 1)) :
    ∃ n < 15, min lead (-places) ≤ lead - (n : ℕ) ∧
      ∃ c, (Decimal.mk c (lead - (n : ℕ))).magnitude = k := by
  have hten : (1 : ℚ) < 10 := by norm_num
  have hself : IsNearest (Binary64.value k) k := isNearest_value hk.le
  have hleast : (10 : ℚ) ^ (-(places : ℤ)) ≤ Decimal.value ⟨m, -(places : ℤ)⟩ :=
    le_mul_of_one_le_left (zpow_ten_pos _).le (Nat.one_le_cast.2 hm)
  rcases lt_or_ge (Decimal.value ⟨m, -(places : ℤ)⟩) (10 ^ lead) with hpast | hpast
  · refine ⟨0, by decide, by omega, tenTo 0, ?_⟩
    have hvalue : Decimal.value ⟨tenTo 0, lead - (0 : ℕ)⟩ = 10 ^ lead := by
      rw [Decimal.value_tenTo, Nat.cast_zero, zero_add, sub_zero]
    exact Decimal.magnitude_eq_of_between h hself (hvalue ▸ hpast.le) (hvalue ▸ hlow)
  rcases lt_or_ge (lead + places) 0 with hbefore | hbefore
  · obtain ⟨i, hi⟩ : ∃ i : ℕ, -(places : ℤ) = i + lead := ⟨(-(places : ℤ) - lead).toNat, by omega⟩
    refine ⟨0, by decide, by omega, tenTo i, ?_⟩
    have hvalue : Decimal.value ⟨tenTo i, lead - (0 : ℕ)⟩ = 10 ^ (-(places : ℤ)) := by
      rw [Decimal.value_tenTo, Nat.cast_zero, sub_zero, hi]
    have hnext : (10 : ℚ) ^ (lead + 1) ≤ 10 ^ (-(places : ℤ)) :=
      zpow_le_zpow_right₀ hten.le (by omega)
    exact Decimal.magnitude_eq_of_between hself h (hvalue ▸ (hup.trans_le hnext).le)
      (hvalue ▸ hleast)
  · obtain ⟨n, hn⟩ := Int.eq_ofNat_of_zero_le hbefore
    have hplaces : lead - (n : ℕ) = -(places : ℤ) := by omega
    refine ⟨n, ?_, by omega, m, hplaces ▸ (Decimal.isNearest_magnitude _).unique h⟩
    have hlt : Decimal.value ⟨m, -(places : ℤ)⟩ < 10 ^ (((15 : ℕ) : ℤ) + -(places : ℤ)) := by
      rw [← Decimal.value_tenTo]
      exact mul_lt_mul_of_pos_right (Nat.cast_lt.2 hdigits) (zpow_ten_pos _)
    have := (zpow_lt_zpow_iff_right₀ hten).1 (hpast.trans_lt hlt)
    omega

/-- **A number of at most fifteen digits and twenty-two places has such a shortest decimal.** -/
theorem shortest_of_isNearest (tie : Tie) (hm : 0 < m) (hdigits : m < tenTo 15)
    (hplaces : places ≤ 22) (hk : k < infinity) (h : IsNearest (m / tenTo places) k) :
    (shortest tie k).coefficient ≤ tenTo 15 ∧ -22 ≤ (shortest tie k).exponent := by
  obtain ⟨hpos, hlead⟩ := le_leadingExponent hm hplaces h
  have hunits : 0 < units k := Binary64.units_zero ▸ Binary64.strictMono_units hpos
  obtain ⟨hlow, hup⟩ := leadingExponent_spec hunits unitsPerOne_pos
  have hquotient : (m / tenTo places : ℚ) = Decimal.value ⟨m, -(places : ℤ)⟩ := by
    rw [Decimal.value, zpow_neg, zpow_ten_eq, div_eq_mul_inv]
  rw [hquotient] at h
  obtain ⟨n, hn, hgrid, c, hc⟩ := exists_magnitude_eq hm hdigits hk h hlow hup
  obtain ⟨hcoefficient, hexponent⟩ := shortest_bounds tie hpos hk (hn.trans (by decide)) hc
  exact ⟨hcoefficient.trans (tenTo_le_tenTo (by omega)), by omega⟩

end FewDigits

end BenchSweep.Number
