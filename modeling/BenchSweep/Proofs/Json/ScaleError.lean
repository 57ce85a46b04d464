import BenchSweep.Proofs.Json.Kept
import BenchSweep.Proofs.Json.Scale
import BenchSweep.Proofs.Number.Error

/-!
# The error of a scaling

Digits are rounded, then divided by a rounded power of ten, and the quotient is rounded again; a
large power is divided by in two steps. The factors of the roundings are multiplied, so the result
is at most two steps from the nearest magnitude, and at most four where there are two divisions.
Past two divisions, everything is zero.

## Why errors are factors

The digits, the power of ten and the quotient are each off by a factor that is close to one, and
factors are multiplied where differences would have to be scaled. Only the last step is absolute:
numbers that differ by a factor have nearest magnitudes that are few steps apart, because a step is
at least a part of `2 ^ 53` of a number. Below the smallest normal number the steps do not shrink
any more, and fewer of them fit into the same factor.

A quotient by two powers is rounded in between, where it may already be so small that steps do not
shrink. So the first of the two divisions is bounded by a difference (`abs_div_sub_div_le`), and the
bound is twice as large.

## Powers of ten

The three hundred and nine powers of ten are looked at one by one, in whole numbers and by
evaluation: each is off from its rounding by at most ninety-two hundredths of a part of `2 ^ 53`. A
rounding may in general be off by a whole one, and then the bound of the result would be three steps
and not two.

## Where the power stays at its bound

The sum of a count and a written exponent stays within thirty-two bits. A power of ten past these is
past two divisions, and also past every product, so nothing is lost by it (`scale_clampExponent`).

## Main definitions

* `scaleMagnitude`: the magnitude of a scaling.
* `powerFactor`: the factor of the error of a power of ten.

## Main results

* `isWithin_scaleMagnitude`: the error of a scaling to a number from zero to one.
* `scale_clampExponent`: it makes no difference that a power of ten stays at its bound.
-/

namespace BenchSweep.Json

open Number (Binary64 Decimal IsClose tenTo twoTo)
open Number.Binary64 (IsNearest IsWithin divMagnitude infinity isNearest_divMagnitude
  isNearest_nearest isNearest_value isNearest_zero isWithin_of_isClose nearest one roundingFactor
  strictMono_value units unitsPerOne unitsPerOne_pos' value value_one value_pos)

/-! ### Powers of ten -/

theorem isNearest_powerOfTen (e : ℕ) : IsNearest (tenTo e) (powerOfTen e) := by
  have h : IsNearest (Decimal.value ⟨1, .ofNat e⟩) (powerOfTen e) :=
    (Decimal.mk 1 e).isNearest_magnitude
  rwa [Decimal.value_ofNat, Nat.one_mul] at h

/-- The factor of the error of a power of ten. -/
def powerFactor : ℚ :=
  900719925474099200 / 900719925474099108

/-- The step of the numbers of fifty-three bits around a power of ten, as an exponent of two. -/
def powerStep (e : ℕ) : ℕ :=
  e * 217706 / 65536 - 52

/-- A power of ten in these steps, rounded. -/
def powerSteps (e : ℕ) : ℕ :=
  (tenTo e + twoTo (powerStep e) / 2) / twoTo (powerStep e)

/-- The powers of ten are checked one by one: each has a multiple of its step near it. -/
theorem powerSteps_near : ∀ e < 309,
    powerStep e ≤ 971 ∧ powerSteps e < twoTo 53 ∧
      powerSteps e * twoTo (powerStep e) * 900719925474099200 ≤ 900719925474099292 * tenTo e ∧
      900719925474099108 * tenTo e ≤
        powerSteps e * twoTo (powerStep e) * 900719925474099200 := by
  decide +kernel

theorem isClose_powerOfTen {e : ℕ} (he : e ≤ largestPower) :
    IsClose powerFactor (value (powerOfTen e)) (tenTo e) := by
  obtain ⟨hstep, hsteps, hup, hlow⟩ := powerSteps_near e (Nat.lt_succ_of_le he)
  obtain ⟨k, hk, hvalue⟩ := Number.Binary64.exists_value_eq hsteps hstep
  have hnear := (isNearest_powerOfTen e).abs_sub_le_abs_sub hk.le
  have hup' : (powerSteps e * twoTo (powerStep e) * 900719925474099200 : ℚ) ≤
      900719925474099292 * tenTo e := by exact_mod_cast hup
  have hlow' : (900719925474099108 * tenTo e : ℚ) ≤
      powerSteps e * twoTo (powerStep e) * 900719925474099200 := by exact_mod_cast hlow
  have herror : |value k - tenTo e| ≤ 92 / 900719925474099200 * tenTo e := by
    rw [hvalue, abs_le]
    constructor <;> linarith
  obtain ⟨hleft, hright⟩ := abs_le.1 (hnear.trans herror)
  have hten := Nat.cast_nonneg (α := ℚ) (tenTo e)
  rw [IsClose, powerFactor]
  constructor <;> linarith

theorem isNearest_one : IsNearest 1 one :=
  value_one ▸ isNearest_value (by decide)

theorem one_le_tenTo (e : ℕ) : (1 : ℚ) ≤ tenTo e :=
  Nat.one_le_cast.2 (Number.tenTo_pos e)

theorem one_le_value_powerOfTen (e : ℕ) : 1 ≤ value (powerOfTen e) :=
  value_one.symm.trans_le <|
    strictMono_value.monotone (isNearest_one.le_of_le (isNearest_powerOfTen e) (one_le_tenTo e))

theorem powerOfTen_pos (e : ℕ) : 0 < powerOfTen e := by
  refine Nat.pos_of_ne_zero fun hzero => ?_
  have h := one_le_value_powerOfTen e
  rw [hzero, Number.Binary64.value_zero] at h
  exact absurd h (by norm_num)

/-! ### Divisions -/

theorem divMagnitude_le_divMagnitude {a b c : ℕ} (hc : 0 < c) (h : a ≤ b) :
    divMagnitude a c ≤ divMagnitude b c :=
  (isNearest_divMagnitude a hc).le_of_le (isNearest_divMagnitude b hc) <|
    div_le_div_of_nonneg_right (strictMono_value.monotone h) (value_pos hc).le

theorem divideByPower_of_le (k : ℕ) {e : ℕ} (he : e ≤ largestPower) :
    divideByPower k e = divMagnitude k (powerOfTen e) := by
  rw [divideByPower, if_pos he]

theorem isNearest_divideByPower (k : ℕ) {e : ℕ} (he : e ≤ largestPower) :
    IsNearest (value k / value (powerOfTen e)) (divideByPower k e) :=
  divideByPower_of_le k he ▸ isNearest_divMagnitude k (powerOfTen_pos e)

theorem divMagnitude_zero (c : ℕ) : divMagnitude 0 (powerOfTen c) = 0 := by
  have h := isNearest_divMagnitude 0 (powerOfTen_pos c)
  rw [Number.Binary64.value_zero, zero_div, ← Number.Binary64.value_zero] at h
  exact h.unique (isNearest_value (Nat.zero_le _))

theorem divideByPower_zero (e : ℕ) : divideByPower 0 e = 0 := by
  rw [divideByPower]
  split
  · exact divMagnitude_zero e
  · exact if_pos rfl

theorem divideByPower_of_lt (k : ℕ) {e : ℕ} (he : largestPower < e) :
    divideByPower k e =
      divideByPower (divMagnitude k (powerOfTen largestPower)) (e - largestPower) := by
  rw [divideByPower, if_neg (Nat.not_le.2 he)]
  split
  · next hzero => rw [hzero, divMagnitude_zero, divideByPower_zero]
  · rfl

/-! ### Scaling -/

/-- The magnitude of a scaling. -/
def scaleMagnitude (digits : ℕ) : ℤ → ℕ
  | .ofNat e =>
    if e ≤ largestPower then Binary64.mulMagnitude (nearest digits 1) (powerOfTen e)
    else if nearest digits 1 = 0 then 0 else infinity
  | .negSucc e => divideByPower (nearest digits 1) (e + 1)

theorem scale_eq (negative : Bool) (digits : ℕ) (exponent : ℤ) :
    scale negative digits exponent =
      if scaleMagnitude digits exponent < infinity
      then some (.ofMagnitude negative (scaleMagnitude digits exponent)) else none :=
  scale_eq_of_scaled rfl

theorem scaleMagnitude_neg (digits e : ℕ) :
    scaleMagnitude digits (-(e : ℤ)) = divideByPower (nearest digits 1) e := by
  cases e with
  | zero =>
    have hone : value (powerOfTen 0) = 1 := by
      rw [value_powerOfTen (Nat.zero_le 22), Number.tenTo_zero, Nat.cast_one]
    have hmul := Number.Binary64.isNearest_mulMagnitude (nearest digits 1) (powerOfTen 0)
    have hdiv := isNearest_divideByPower (nearest digits 1) (Nat.zero_le largestPower)
    rw [hone, mul_one] at hmul
    rw [hone, div_one] at hdiv
    have hneg : -((0 : ℕ) : ℤ) = .ofNat 0 := rfl
    rw [hneg, scaleMagnitude, if_pos (Nat.zero_le largestPower)]
    exact hmul.unique hdiv
  | succ e =>
    have hneg : -((e + 1 : ℕ) : ℤ) = .negSucc e := rfl
    rw [hneg, scaleMagnitude]

section Error

variable {digits k e : ℕ} {v : ℚ}

/-! ### One division -/

theorem nearest_lt_infinity (hlt : digits < significandBound) : nearest digits 1 < infinity := by
  have hle := (isNearest_nearest_one digits).le_of_le (isNearest_nearest_one significandBound)
    (Nat.cast_le.2 hlt.le)
  exact hle.trans_lt (by decide +kernel)

theorem isClose_digits (hpos : 0 < digits) (hlt : digits < significandBound) :
    IsClose roundingFactor (value (nearest digits 1)) digits :=
  Number.Binary64.isClose_value (isNearest_nearest_one digits) (nearest_lt_infinity hlt)
    (Nat.one_le_cast.2 hpos)

theorem le_one_of_le {q : ℚ} (h : IsNearest q k) (hq : q ≤ 1) : k ≤ one :=
  h.le_of_le isNearest_one hq

/-- Digits that are not above a power of ten are not so after rounding. -/
theorem value_nearest_div_le (h : digits ≤ tenTo e) :
    value (nearest digits 1) / value (powerOfTen e) ≤ 1 := by
  rw [div_le_one (value_pos (powerOfTen_pos e))]
  exact strictMono_value.monotone <|
    (isNearest_nearest_one digits).le_of_le (isNearest_powerOfTen e) (Nat.cast_le.2 h)

/-- What is kept is close to what it is kept of. -/
theorem isClose_of_kept {x : ℚ} (hx : 0 ≤ x) (hlow : x ≤ v)
    (hup : v ≤ (1 + 1 / (manyDigits : ℚ)) * x) : IsClose (1 + 1 / (manyDigits : ℚ)) v x :=
  ⟨hup, hlow.trans <| le_mul_of_one_le_left (hx.trans hlow) <|
    le_add_of_nonneg_right (one_div_nonneg.2 (Nat.cast_nonneg _))⟩

theorem isClose_quotient (hpos : 0 < digits) (hlt : digits < significandBound)
    (he : e ≤ largestPower) :
    IsClose (roundingFactor * powerFactor) (value (nearest digits 1) / value (powerOfTen e))
      (digits / tenTo e) :=
  (isClose_digits hpos hlt).div (Number.Binary64.value_nonneg _) (Nat.cast_nonneg _)
    (value_pos (powerOfTen_pos e)) (Nat.cast_pos.2 (Number.tenTo_pos e)) (isClose_powerOfTen he)

theorem manyDigits_eq : (manyDigits : ℚ) = 1152921504606846976 := by
  rw [manyDigits, Number.twoTo_eq]
  norm_num

theorem keptFactor_nonneg : 0 ≤ 1 + 1 / (manyDigits : ℚ) := by
  positivity

theorem quotientFactor_nonneg : 0 ≤ roundingFactor * powerFactor := by
  rw [roundingFactor, powerFactor]
  norm_num

theorem powerFactor_nonneg : 0 ≤ powerFactor := by
  rw [powerFactor]
  norm_num

/-- The factor of what is dropped, of the digits and of the power is little more than one. -/
theorem factor_le :
    (1 + 1 / (manyDigits : ℚ)) * (roundingFactor * powerFactor) ≤ 1 + 199 / 100 / twoTo 53 := by
  rw [manyDigits_eq, Number.Binary64.twoTo_fiftyThree_eq, roundingFactor, powerFactor]
  norm_num

variable (hpos : 0 < digits) (hlt : digits < significandBound)
  (hlow : digits / tenTo e ≤ v) (hup : v ≤ (1 + 1 / (manyDigits : ℚ)) * (digits / tenTo e))
  (hone : v ≤ 1) (hk : IsNearest v k)

include hlow hone in
theorem le_tenTo : digits ≤ tenTo e := by
  have h := hlow.trans hone
  rw [div_le_one (Nat.cast_pos.2 (Number.tenTo_pos e))] at h
  exact_mod_cast h

include hpos hlt hlow hup hone hk

/-- One division is at most two steps from the nearest magnitude. -/
theorem isWithin_one_division (he : e ≤ largestPower) :
    divideByPower (nearest digits 1) e ≤ one ∧
      IsWithin 2 (divideByPower (nearest digits 1) e) k := by
  have hnearest := isNearest_divideByPower (nearest digits 1) he
  refine ⟨le_one_of_le hnearest (value_nearest_div_le (le_tenTo hlow hone)), ?_⟩
  have hquotient : 0 ≤ (digits / tenTo e : ℚ) := div_nonneg (Nat.cast_nonneg _) (Nat.cast_nonneg _)
  have hv : 0 ≤ v := hquotient.trans hlow
  have hread := div_nonneg (Number.Binary64.value_nonneg (nearest digits 1))
    (Number.Binary64.value_nonneg (powerOfTen e))
  have hclose := (isClose_of_kept hquotient hlow hup).trans keptFactor_nonneg quotientFactor_nonneg
    (isClose_quotient hpos hlt he).symm
  exact isWithin_of_isClose hnearest hk (by norm_num) (by norm_num)
    (hclose.symm.mono hread hv factor_le)

/-! ### Two divisions -/

omit hpos hlt hlow hup hone hk in
theorem ten_le_value_powerOfTen (he : 0 < e) : 10 ≤ value (powerOfTen e) := by
  have hten : value (powerOfTen 1) = 10 := by
    rw [value_powerOfTen (by decide)]
    rfl
  rw [← hten]
  refine strictMono_value.monotone ((isNearest_powerOfTen 1).le_of_le (isNearest_powerOfTen e) ?_)
  exact Nat.cast_le.2 (Number.tenTo_le_tenTo he)

omit hlow hup hone hk in
theorem isClose_two_quotients (he : e ≤ largestPower) :
    IsClose (roundingFactor * powerFactor * powerFactor)
      (value (nearest digits 1) / value (powerOfTen largestPower) / value (powerOfTen e))
      (digits / tenTo (largestPower + e)) := by
  rw [← Number.tenTo_add, Nat.cast_mul, ← div_div]
  exact (isClose_quotient hpos hlt (le_refl largestPower)).div
    (div_nonneg (Number.Binary64.value_nonneg _) (Number.Binary64.value_nonneg _))
    (div_nonneg (Nat.cast_nonneg _) (Nat.cast_nonneg _)) (value_pos (powerOfTen_pos e))
    (Nat.cast_pos.2 (Number.tenTo_pos e)) (isClose_powerOfTen he)

omit hpos hlt hlow hup hone hk in
/-- A rounding may be off by half a unit, and a tenth of that is left after a division. -/
theorem abs_div_sub_div_le {x : ℚ} {first : ℕ} (hfirst : IsNearest x first)
    (hfinite : first < infinity) (hx : 0 ≤ x) (he : 0 < e) :
    |value first / value (powerOfTen e) - x / value (powerOfTen e)| ≤
      x / value (powerOfTen e) / twoTo 53 + 1 / unitsPerOne / 20 := by
  have h := hfirst.abs_sub_le hfinite hx
  have hpower := value_pos (powerOfTen_pos e)
  have hunit : 0 ≤ (1 / unitsPerOne : ℚ) := one_div_nonneg.2 (Nat.cast_nonneg _)
  have htenth := mul_le_mul_of_nonneg_left (ten_le_value_powerOfTen he) hunit
  have hhalf : (1 / (2 * unitsPerOne) : ℚ) = 1 / unitsPerOne / 2 := by
    rw [mul_comm, div_div]
  rw [hhalf] at h
  rw [← sub_div, abs_div, abs_of_pos hpower, div_le_iff₀ hpower, add_mul,
    div_right_comm _ _ (twoTo 53 : ℚ), div_mul_cancel₀ _ hpower.ne']
  linarith

omit hpos hlt hlow hup hone hk in
/-- Between a number and what it is close to, a rounding with a small part of a unit adds little. -/
theorem bounds_of_error {x y w : ℚ} (hy : 0 ≤ y) (hw : 0 ≤ w)
    (hclose :
      IsClose ((1 + 1 / (manyDigits : ℚ)) * (roundingFactor * powerFactor * powerFactor)) v x)
    (herror : |y - x| ≤ x / twoTo 53 + w / 20) (hv : 0 ≤ v) :
    v ≤ y + 39 / 10 * (y / twoTo 53) + 6 / 100 * w ∧
      y ≤ v + 39 / 10 * (v / twoTo 53) + 6 / 100 * w := by
  rw [Number.Binary64.twoTo_fiftyThree_eq] at herror ⊢
  rw [manyDigits_eq, roundingFactor, powerFactor] at hclose
  norm_num at hclose
  obtain ⟨hleft, hright⟩ := abs_le.1 herror
  obtain ⟨hup, hlow⟩ := hclose
  constructor <;> linarith

omit hone in
/-- Two divisions are at most four steps from the nearest magnitude. -/
theorem isWithin_two_divisions (he : largestPower < e) (he' : e ≤ 2 * largestPower) :
    divideByPower (nearest digits 1) e ≤ one ∧
      IsWithin 4 (divideByPower (nearest digits 1) e) k := by
  obtain ⟨j, hj, hj', rfl⟩ : ∃ j, 0 < j ∧ j ≤ largestPower ∧ e = largestPower + j :=
    ⟨e - largestPower, by omega, by omega, by omega⟩
  rw [divideByPower_of_lt _ he, Nat.add_sub_cancel_left]
  have hfirst := isNearest_divMagnitude (nearest digits 1) (powerOfTen_pos largestPower)
  obtain ⟨first, hfirstEq⟩ : ∃ first, first = divMagnitude (nearest digits 1)
    (powerOfTen largestPower) := ⟨_, rfl⟩
  rw [← hfirstEq] at hfirst ⊢
  have hsecond := isNearest_divideByPower first hj'
  have hpower := value_pos (powerOfTen_pos j)
  have hbound : digits ≤ tenTo largestPower := hlt.le.trans <|
    (by decide : significandBound ≤ tenTo 20).trans (Number.tenTo_le_tenTo (by decide))
  have hfirstLe : first ≤ one := le_one_of_le hfirst (value_nearest_div_le hbound)
  have hle : value first / value (powerOfTen j) ≤ 1 := by
    have hfirstLe' : value first ≤ 1 := value_one ▸ strictMono_value.monotone hfirstLe
    rw [div_le_one hpower]
    exact hfirstLe'.trans (one_le_value_powerOfTen j)
  refine ⟨le_one_of_le hsecond hle, ?_⟩
  have hquotient : 0 ≤ (digits / tenTo (largestPower + j) : ℚ) :=
    div_nonneg (Nat.cast_nonneg _) (Nat.cast_nonneg _)
  have hclose := (isClose_of_kept hquotient hlow hup).trans keptFactor_nonneg
    (mul_nonneg quotientFactor_nonneg powerFactor_nonneg)
    (isClose_two_quotients hpos hlt hj').symm
  have herror := abs_div_sub_div_le hfirst (hfirstLe.trans_lt (by decide))
    (div_nonneg (Number.Binary64.value_nonneg _) (Number.Binary64.value_nonneg _)) hj
  obtain ⟨hwithin, hwithin'⟩ :=
    bounds_of_error (div_nonneg (Number.Binary64.value_nonneg _) hpower.le)
      (one_div_nonneg.2 (Nat.cast_nonneg _)) hclose herror (hquotient.trans hlow)
  rw [mul_one_div] at hwithin hwithin'
  exact ⟨hsecond.le_add hk (by norm_num) (by norm_num) (by norm_num) hwithin',
    hk.le_add hsecond (by norm_num) (by norm_num) (by norm_num) hwithin⟩

omit hpos hlow hup hone hk in
/-- Past two divisions, everything is zero. -/
theorem divideByPower_of_large (he : 2 * largestPower < e) :
    divideByPower (nearest digits 1) e = 0 := by
  have hlarge : largestPower = 308 := rfl
  rw [divideByPower_of_lt _ (by omega), divideByPower_of_lt _ (by omega)]
  have hmost : divMagnitude (divMagnitude (nearest significandBound 1) (powerOfTen largestPower))
      (powerOfTen largestPower) = 0 := by decide +kernel
  have hdigits := (isNearest_nearest_one digits).le_of_le
    (isNearest_nearest_one significandBound) (Nat.cast_le.2 hlt.le)
  have hle := divMagnitude_le_divMagnitude (powerOfTen_pos largestPower)
    (divMagnitude_le_divMagnitude (powerOfTen_pos largestPower) hdigits)
  rw [hmost, Nat.le_zero] at hle
  rw [hle, divideByPower_zero]

omit hpos hone in
/-- So is the nearest magnitude. -/
theorem eq_zero_of_large (he : 2 * largestPower < e) : k = 0 := by
  have hlarge : largestPower = 308 := rfl
  refine hk.unique (isNearest_zero ?_)
  have htwice : 2 * digits < tenTo 20 := by
    have : 2 * significandBound < tenTo 20 := by decide
    omega
  have hlength : (Number.decimal (2 * digits)).length ≤ 20 :=
    (Number.length_decimal_le_iff (by decide)).2 htwice
  have hlimit : Decimal.exponentLimit = 400 := rfl
  have hsmall := Decimal.value_lt_one (n := 2 * digits) (e := e) (by omega)
  rw [manyDigits_eq] at hup
  rw [Nat.cast_mul, Nat.cast_ofNat, mul_div_assoc] at hsmall
  linarith

end Error

/-! ### Powers of ten past the bound -/

theorem scaleMagnitude_of_largestPower_lt (digits : ℕ) {e : ℕ} (he : largestPower < e) :
    scaleMagnitude digits e = if nearest digits 1 = 0 then 0 else infinity := by
  have hcast : (e : ℤ) = .ofNat e := rfl
  rw [hcast, scaleMagnitude, if_neg (Nat.not_le.2 he)]

/-- **A power of ten that stays at its bound is as good as the one past it**: the number is zero or
out of range in both cases. -/
theorem scale_clampExponent (negative : Bool) {digits : ℕ} (hlt : digits < significandBound)
    (exponent : ℤ) : scale negative digits (clampExponent exponent) =
      scale negative digits exponent := by
  have hbound : exponentBound = 2147483648 := rfl
  have hlarge : largestPower = 308 := rfl
  rw [scale_eq, scale_eq]
  rcases lt_or_ge exponent (-exponentBound) with hlow | hlow
  · obtain ⟨e, rfl⟩ : ∃ e : ℕ, exponent = -(e : ℤ) := ⟨exponent.natAbs, by omega⟩
    have hclamp : clampExponent (-(e : ℤ)) = -(exponentBound : ℤ) := by
      rw [clampExponent]
      omega
    rw [hclamp, scaleMagnitude_neg, scaleMagnitude_neg, divideByPower_of_large hlt (by omega),
      divideByPower_of_large hlt (by omega)]
  rcases lt_or_ge exponent exponentBound with hup | hup
  · have hclamp : clampExponent exponent = exponent := by
      rw [clampExponent]
      omega
    rw [hclamp]
  · obtain ⟨e, rfl⟩ : ∃ e : ℕ, exponent = e := ⟨exponent.natAbs, by omega⟩
    have hclamp : clampExponent e = (exponentBound - 1 : ℕ) := by
      rw [clampExponent]
      omega
    rw [hclamp, scaleMagnitude_of_largestPower_lt digits (by omega),
      scaleMagnitude_of_largestPower_lt digits (by omega)]

/-- **A scaling to a number from zero to one is close to the nearest magnitude**: at most two steps
away, or four where the power of ten is divided by in two steps. -/
theorem isWithin_scaleMagnitude {d : Decimal} {v : ℚ} {k : ℕ} (hpos : 0 < d.coefficient)
    (hlt : d.coefficient < significandBound) (hlow : d.value ≤ v)
    (hup : v ≤ (1 + 1 / (manyDigits : ℚ)) * d.value) (hone : v ≤ 1) (hk : IsNearest v k) :
    scaleMagnitude d.coefficient d.exponent ≤ one ∧
      IsWithin 4 (scaleMagnitude d.coefficient d.exponent) k ∧
      (-308 ≤ d.exponent → IsWithin 2 (scaleMagnitude d.coefficient d.exponent) k) := by
  obtain ⟨n, e⟩ := d
  dsimp only at hpos hlt ⊢
  have hn : (1 : ℚ) ≤ n := Nat.one_le_cast.2 hpos
  obtain ⟨e, rfl⟩ : ∃ i : ℕ, e = -(i : ℤ) := by
    -- a positive power of ten is past one
    have hle : (10 : ℚ) ^ e ≤ 10 ^ (0 : ℤ) := by
      rw [zpow_zero]
      refine le_trans ?_ (hlow.trans hone)
      exact le_mul_of_one_le_left (zpow_nonneg (by norm_num) _) hn
    have := (zpow_le_zpow_iff_right₀ (by norm_num : (1 : ℚ) < 10)).1 hle
    exact ⟨e.natAbs, by omega⟩
  have hvalue : Decimal.value ⟨n, -(e : ℤ)⟩ = n / tenTo e := by
    rw [Decimal.value, zpow_neg, zpow_natCast, Number.tenTo_eq, Nat.cast_pow, Nat.cast_ofNat,
      div_eq_mul_inv]
  rw [hvalue] at hlow hup
  rw [scaleMagnitude_neg]
  have hlarge : largestPower = 308 := rfl
  rcases Nat.lt_or_ge largestPower e with hlt' | hle
  · have hfar : -308 ≤ -(e : ℤ) → IsWithin 2 (divideByPower (nearest n 1) e) k := fun h => by omega
    rcases Nat.lt_or_ge (2 * largestPower) e with hfarther | hnear
    · obtain rfl := eq_zero_of_large hlt hlow hup hk hfarther
      rw [divideByPower_of_large hlt hfarther] at hfar ⊢
      exact ⟨Nat.zero_le _, ⟨Nat.zero_le _, Nat.zero_le _⟩, hfar⟩
    · obtain ⟨hunit, hwithin⟩ := isWithin_two_divisions hpos hlt hlow hup hk hlt' hnear
      exact ⟨hunit, hwithin, hfar⟩
  · obtain ⟨hunit, hwithin⟩ := isWithin_one_division hpos hlt hlow hup hone hk hle
    exact ⟨hunit, hwithin.mono (by decide), fun _ => hwithin⟩

end BenchSweep.Json
