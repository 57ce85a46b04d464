import BenchSweep.Proofs.Json.Float
import BenchSweep.Proofs.Json.ScaleError

/-!
# Literals from zero to one

A literal from zero to one is read as a number that is close to the nearest one, with its sign. It
is the nearest one if the digits are exact and the power of ten is small.

## Why the length is bounded

The reader counts digits in thirty-two bits, and an exponent of `2 ^ 31` or more is not added up:
the number is zero. Such an exponent makes a literal zero or nothing near it, unless as many digits
stand against it, and a count starts over only after as many digits. A literal of fewer than
`2 ^ 30` characters has not so many, so the hypothesis is on the length of the text and nothing
else. It cannot be left out: `exists_one_read_as_zero` is a literal of the value one that is read as
zero.

## Why the results are not equations

The digits that are kept are rounded, and so is their quotient by a power of ten. Nothing puts the
two errors right, so what is said of all literals from zero to one is a bound, in steps between
neighbours, and the nearest number is the measure and not the result. The bound is that of one
division, or of two where the literal has more than three hundred and eight places. `IsExact` is the
case in which only one of the roundings is left; there the value of the literal may be any.

## Main definitions

* `IsExact`: the digits of a literal are exact, and its power of ten is small.
* `IsNear`: a number near the one nearest to a literal.

## Main results

* `exists_float?_isNear`: the number of a literal from zero to one is near it.
* `float?_of_isExact`: the number of an exact literal is the nearest one.
-/

namespace BenchSweep.Json

open Number (Binary64 Decimal Literal Scale digitsValue tenTo twoTo)
open Number.Binary64 (IsNearest IsWithin infinity isNearest_value isNearest_zero nearest one)

/-! ### Zero -/

theorem nearest_zero : nearest 0 1 = 0 := by
  have h := isNearest_nearest_one 0
  rw [Nat.cast_zero, ← Number.Binary64.value_zero] at h
  exact h.unique (isNearest_value (Nat.zero_le _))

theorem scaleMagnitude_zero (exponent : ℤ) : scaleMagnitude 0 exponent = 0 := by
  cases exponent with
  | ofNat e =>
    rw [scaleMagnitude, nearest_zero, if_pos rfl]
    split
    · have h := Number.Binary64.isNearest_mulMagnitude 0 (powerOfTen e)
      rw [Number.Binary64.value_zero, zero_mul, ← Number.Binary64.value_zero] at h
      exact h.unique (isNearest_value (Nat.zero_le _))
    · rfl
  | negSucc e => rw [scaleMagnitude, nearest_zero, divideByPower_zero]

theorem magnitude_eq_zero_of_coefficient {d : Decimal} (h : d.coefficient = 0) :
    d.magnitude = 0 := by
  rw [Decimal.magnitude, if_pos h]

variable {l : Literal}

theorem coefficient_eq_zero_iff :
    (keptDecimal l).coefficient = 0 ↔ l.decimal.coefficient = 0 := by
  constructor
  · intro h
    rw [← keptDecimal_eq l (h ▸ Number.twoTo_pos 60), h]
  · intro h
    by_contra hne
    have hpos :=
      (Number.Decimal.value_pos (Nat.pos_of_ne_zero hne)).trans_le (value_keptDecimal_le l)
    rw [Decimal.value, h, Nat.cast_zero, zero_mul] at hpos
    exact lt_irrefl _ hpos

/-- From zero to one, there is no positive power of ten. -/
theorem exponent_le_zero (hone : l.decimal.value ≤ 1) (h : l.decimal.coefficient ≠ 0) :
    l.decimal.exponent ≤ 0 := by
  have hcoefficient : (1 : ℚ) ≤ l.decimal.coefficient :=
    Nat.one_le_cast.2 (Nat.pos_of_ne_zero h)
  have hle : (10 : ℚ) ^ l.decimal.exponent ≤ 10 ^ (0 : ℤ) := by
    rw [zpow_zero]
    exact (le_mul_of_one_le_left (zpow_nonneg (by norm_num) _) hcoefficient).trans hone
  exact (zpow_le_zpow_iff_right₀ (by norm_num)).1 hle

/-! ### Exponents that are not added up -/

theorem length_le_length_chars (l : Literal) :
    l.whole.length + l.fraction.length ≤ l.chars.length := by
  have hfraction : l.fraction.length ≤ (Literal.fractionChars l.fraction).length := by
    rw [Literal.fractionChars]
    split
    · next h => rw [h]
    · exact Nat.le_succ _
  rw [Literal.chars, Literal.tail, List.length_append, List.length_append, List.length_append]
  omega

theorem not_isMissed_of_short (hlength : l.chars.length < twoTo 30) (digits : ℕ) :
    ¬IsMissed digits l.fraction := by
  have hchars := length_le_length_chars l
  have hbound : exponentBound = 2147483648 := rfl
  have hlength' : twoTo 30 = 1073741824 := rfl
  exact not_isMissed_of_length_lt (by omega) digits

theorem length_decimal_coefficient_le (l : Literal) :
    (Number.decimal l.decimal.coefficient).length ≤ l.whole.length + l.fraction.length := by
  have hpos := List.length_pos_iff.2 l.whole_ne_nil
  rw [← List.length_append] at *
  rw [Number.length_decimal_le_iff (by rw [List.length_append]; omega)]
  exact Number.digitsValue_lt (List.forall_mem_append.2 ⟨l.isDigit_whole, l.isDigit_fraction⟩)

/-- What is far below one is zero. -/
theorem magnitude_eq_zero_of_exponent_lt
    (h : l.decimal.exponent + (Number.decimal l.decimal.coefficient).length <
      -(Decimal.exponentLimit : ℤ)) : l.decimal.magnitude = 0 := by
  obtain ⟨e, he⟩ : ∃ e : ℕ, l.decimal.exponent = -(e : ℤ) := ⟨l.decimal.exponent.natAbs, by omega⟩
  refine l.decimal.isNearest_magnitude.unique (isNearest_zero ?_)
  have hvalue : l.decimal.value = l.decimal.coefficient / tenTo e := by
    rw [Decimal.value, he, zpow_neg, Number.zpow_ten_eq, div_eq_mul_inv]
  rw [hvalue]
  exact Decimal.value_lt_one (by omega)

section Large

variable {s : Scale} (hs : l.scale = some s) (hsize : exponentBound ≤ s.size)
  (hlength : l.chars.length < twoTo 30)

include hs hsize hlength

/-- The exponent outweighs the digits. -/
theorem exponent_of_large :
    if s.isNegative then l.decimal.exponent + (Number.decimal l.decimal.coefficient).length <
      -(Decimal.exponentLimit : ℤ) else Decimal.exponentLimit < l.decimal.exponent := by
  have hchars := length_le_length_chars l
  have hdecimal := length_decimal_coefficient_le l
  have hbound : exponentBound = 2147483648 := rfl
  have hlength' : twoTo 30 = 1073741824 := rfl
  have hlimit : Decimal.exponentLimit = 400 := rfl
  have hexponent : l.decimal.exponent = s.value - (l.fraction.length : ℤ) := by
    rw [Literal.decimal, hs, Literal.scaleValue]
  rw [hexponent, Scale.value]
  split <;> omega

theorem magnitude_eq_zero_of_large (hone : l.decimal.value ≤ 1) : l.decimal.magnitude = 0 := by
  have h := exponent_of_large hs hsize hlength
  split at h
  · exact magnitude_eq_zero_of_exponent_lt h
  · by_contra hne
    have hle := exponent_le_zero hone fun hzero => hne (magnitude_eq_zero_of_coefficient hzero)
    omega

theorem float?_of_large (hone : l.decimal.value ≤ 1) :
    float? l = some (.ofMagnitude l.negative 0) := by
  have hmissed := not_isMissed_of_short hlength (readDigits significandBound 0 l.whole).1
  rw [float?, if_neg hmissed, hs, scaled, if_neg (Nat.not_lt.2 hsize), if_neg]
  rintro ⟨hne, hpositive⟩
  have h := exponent_of_large hs hsize hlength
  rw [Bool.not_eq_true'] at hpositive
  rw [hpositive, if_neg Bool.false_ne_true] at h
  have hle := exponent_le_zero hone fun hzero => hne (coefficient_eq_zero_iff.2 hzero)
  omega

end Large

/-! ### The number of a literal -/

/-- At most the digits in front of the point are dropped, and at most those after it are counted. -/
theorem kept_bounds (l : Literal) :
    -(l.fraction.length : ℤ) ≤ (kept l).2 ∧ (kept l).2 ≤ l.whole.length := by
  obtain ⟨front, hfront, -⟩ := exists_readDigits significandBound 0 l.whole
  have hlength := congrArg List.length hfront
  rw [List.length_append] at hlength
  rw [kept]
  dsimp only
  omega

theorem float?_of_size_lt (hlength : l.chars.length < twoTo 30)
    (h : ∀ s ∈ l.scale, s.size < exponentBound) :
    float? l = scale l.negative (keptDecimal l).coefficient (keptDecimal l).exponent := by
  have hchars := length_le_length_chars l
  have hbound : exponentBound = 2147483648 := rfl
  have hlength' : twoTo 30 = 1073741824 := rfl
  obtain ⟨hlow, hup⟩ := kept_bounds l
  rw [float?, if_neg (not_isMissed_of_short hlength _), wrapCount_of_lt (by omega) (by omega)]
  cases hs : l.scale with
  | none => rw [scaled, keptDecimal, hs, Literal.scaleValue, add_zero]
  | some s =>
    have hdigits : (kept l).1 < significandBound := coefficient_keptDecimal_lt l
    rw [scaled, if_pos (h s hs), scale_clampExponent _ hdigits, keptDecimal, hs,
      Literal.scaleValue]

/-- Where an exponent is not added up, there is one. -/
theorem exists_scale_of_large (hlarge : ¬∀ s ∈ l.scale, s.size < exponentBound) :
    ∃ s, l.scale = some s ∧ exponentBound ≤ s.size := by
  by_contra hnone
  refine hlarge fun s hs => ?_
  by_contra hsize
  exact hnone ⟨s, hs, Nat.not_lt.1 hsize⟩

/-- One, written with very many zeros and an exponent that takes them back, is read as zero. So the
length of a literal has to be bounded where its number is to be near the nearest one. -/
theorem exists_one_read_as_zero {n : ℕ} (hn : exponentBound ≤ n) :
    ∃ l : Literal, l.value = 1 ∧ float? l = some (.ofMagnitude false 0) := by
  have hzeros : ∀ c ∈ '1' :: List.replicate n '0', Number.isDigit c = true :=
    List.forall_mem_cons.2 ⟨rfl, fun _ => Number.isDigit_of_mem_replicate⟩
  have hpos : 0 < n := (Number.twoTo_pos 31).trans_le hn
  let l : Literal := ⟨false, '1' :: List.replicate n '0', [], some (.ofInt (-(n : ℤ))),
    List.cons_ne_nil _ _, hzeros, fun h => absurd (Option.some.inj h) (by decide), by simp⟩
  have hdigits : digitsValue 0 ('1' :: List.replicate n '0') = tenTo n := by
    rw [Number.digitsValue_cons, Number.digitsValue_replicate_zero]
    exact Nat.one_mul _
  refine ⟨l, ?_, ?_⟩
  · have hdecimal : l.decimal = ⟨tenTo n, -(n : ℤ)⟩ := by
      rw [Literal.decimal, Literal.scaleValue, Scale.value_ofInt, List.append_nil, hdigits,
        List.length_nil, Nat.cast_zero, sub_zero]
    rw [Literal.value, hdecimal, if_neg Bool.false_ne_true, Number.Decimal.value_tenTo,
      add_neg_cancel, zpow_zero]
  · have hmissed (digits : ℕ) : ¬IsMissed digits l.fraction := fun h => h.1 rfl
    have hsize : ¬(Scale.ofInt (-(n : ℤ))).size < exponentBound := by
      rw [Scale.size_ofInt, Int.natAbs_neg, Int.natAbs_natCast]
      exact Nat.not_lt.2 hn
    have hnegative : (Scale.ofInt (-(n : ℤ))).isNegative = true := by
      simpa [Scale.isNegative, Scale.ofInt] using hpos
    rw [float?, if_neg (hmissed _), scaled, if_neg hsize, hnegative, if_neg (by simp)]

/-- The magnitude of the number of a literal from zero to one: at most two steps from the nearest
one, or four where the literal has more than three hundred and eight places. -/
theorem exists_float? (hone : l.decimal.value ≤ 1) (hlength : l.chars.length < twoTo 30) :
    ∃ k, float? l = some (.ofMagnitude l.negative k) ∧ k ≤ one ∧
      IsWithin 4 k l.decimal.magnitude ∧
      (-308 ≤ l.decimal.exponent → IsWithin 2 k l.decimal.magnitude) ∧
      (l.decimal.coefficient = 0 → k = 0) := by
  by_cases hsize : ∀ s ∈ l.scale, s.size < exponentBound
  · obtain ⟨k, hk⟩ : ∃ k, k = scaleMagnitude (keptDecimal l).coefficient (keptDecimal l).exponent :=
      ⟨_, rfl⟩
    have hfloat : k ≤ one → float? l = some (.ofMagnitude l.negative k) := fun hle => by
      rw [float?_of_size_lt hlength hsize, scale_eq, ← hk, if_pos (hle.trans_lt (by decide))]
    rcases Nat.eq_zero_or_pos (keptDecimal l).coefficient with hzero | hpos
    · rw [hzero, scaleMagnitude_zero] at hk
      have hmagnitude := magnitude_eq_zero_of_coefficient (coefficient_eq_zero_iff.1 hzero)
      have hsame (n : ℕ) : IsWithin n k l.decimal.magnitude :=
        ⟨by omega, by omega⟩
      exact ⟨k, hfloat (by omega), by omega, hsame 4, fun _ => hsame 2, fun _ => hk⟩
    · obtain ⟨hunit, hfour, htwo⟩ := isWithin_scaleMagnitude hpos (coefficient_keptDecimal_lt l)
        (value_keptDecimal_le l) (value_decimal_le l) hone l.decimal.isNearest_magnitude
      rw [← hk] at hunit hfour htwo
      exact ⟨k, hfloat hunit, hunit, hfour, fun h => htwo (h.trans (exponent_le_keptDecimal l)),
        fun h => absurd (coefficient_eq_zero_iff.2 h) hpos.ne'⟩
  · obtain ⟨s, hs, hlarge⟩ := exists_scale_of_large hsize
    have hmagnitude := magnitude_eq_zero_of_large hs hlarge hlength hone
    have hsame (n : ℕ) : IsWithin n 0 l.decimal.magnitude := ⟨by omega, by omega⟩
    exact ⟨0, float?_of_large hs hlarge hlength hone, Nat.zero_le _, hsame 4, fun _ => hsame 2,
      fun _ => rfl⟩

/-! ### Exact literals -/

/-- The literal is zero; or its digits fit into sixty-four bits and are a number of fifty-three bits
with zeros in base two after it, and its power of ten is at most the twenty-second, up or down. -/
def IsExact (l : Literal) : Prop :=
  l.decimal.coefficient = 0 ∨
    l.decimal.coefficient < significandBound ∧ l.decimal.exponent.natAbs ≤ 22 ∧
      ∃ m j, m < twoTo 53 ∧ l.decimal.coefficient = m * twoTo j

/-- Digits that fit have few zeros in base two after them. -/
theorem value_nearest_of_lt {m j : ℕ} (hm : m < twoTo 53) (hpos : 0 < m * twoTo j)
    (hlt : m * twoTo j < significandBound) :
    Number.Binary64.value (nearest (m * twoTo j) 1) = (m * twoTo j : ℕ) := by
  have hj : j < 64 := by
    have hle : twoTo j ≤ m * twoTo j :=
      Nat.le_mul_of_pos_left _ (Nat.pos_of_mul_pos_right hpos)
    exact (Nat.pow_lt_pow_iff_right (by decide)).1 (hle.trans_lt hlt)
  exact (value_nearest_of_exact hm (by omega)).2

/-- Digits that fit are far from infinity at a small power of ten. -/
theorem magnitude_lt_infinity {d : Decimal} (hlt : d.coefficient < significandBound)
    (hsmall : d.exponent.natAbs ≤ 22) : d.magnitude < infinity := by
  have hlarge : nearest (significandBound * tenTo 22) 1 < infinity := by decide +kernel
  refine (d.isNearest_magnitude.le_of_le (isNearest_nearest_one _) ?_).trans_lt hlarge
  rw [Decimal.value, Nat.cast_mul, ← Number.zpow_ten_eq]
  exact mul_le_mul (Nat.cast_le.2 hlt.le)
    (zpow_le_zpow_right₀ (by norm_num) (by omega)) (zpow_nonneg (by norm_num) _)
    (Nat.cast_nonneg _)

/-- **The number of an exact literal is the nearest one.** -/
theorem float?_of_isExact (hlength : l.chars.length < twoTo 30) (h : IsExact l) :
    float? l = some l.number := by
  by_cases hzero : l.decimal.coefficient = 0
  · have hone : l.decimal.value ≤ 1 := by
      rw [Decimal.value, hzero, Nat.cast_zero, zero_mul]
      exact zero_le_one
    obtain ⟨k, hk, -, -, -, hk0⟩ := exists_float? hone hlength
    rw [hk, hk0 hzero, Literal.number, magnitude_eq_zero_of_coefficient hzero]
  · obtain ⟨hlt, hsmall, m, j, hm, hc⟩ := h.resolve_left hzero
    have hchars := length_le_length_chars l
    have hbound : exponentBound = 2147483648 := rfl
    have hlength' : twoTo 30 = 1073741824 := rfl
    have hsize : ∀ s ∈ l.scale, s.size < exponentBound := by
      by_contra hlarge
      obtain ⟨s, hs, hsize⟩ := exists_scale_of_large hlarge
      have hwhich := exponent_of_large hs hsize hlength
      have hlimit : Decimal.exponentLimit = 400 := rfl
      split at hwhich <;> omega
    refine float?_of_exact hlt ?_ (by omega) hsmall hsize (magnitude_lt_infinity hlt hsmall)
    rw [hc] at hzero hlt ⊢
    exact value_nearest_of_lt hm (Nat.pos_of_ne_zero hzero) hlt

/-! ### Numbers near a literal -/

theorem abs_value (l : Literal) : |l.value| = l.decimal.value := by
  have hnonneg := l.decimal.value_nonneg
  rw [Literal.value]
  split
  · rw [abs_neg, abs_of_nonneg hnonneg]
  · exact abs_of_nonneg hnonneg

/-- A ratio with a minus sign is zero. -/
theorem coefficient_eq_zero_of_negative (hlow : 0 ≤ l.value) (h : l.negative = true) :
    l.decimal.coefficient = 0 := by
  by_contra hne
  have hpos := Decimal.value_pos (Nat.pos_of_ne_zero hne)
  rw [Literal.value, if_pos h] at hlow
  linarith

/-- A number with the sign of a literal, from zero to one, that is at most two steps from the number
nearest to the literal, or four where the literal has more than three hundred and eight places. -/
structure IsNear (l : Literal) (y : Binary64) : Prop where
  isNegative_eq : y.isNegative = l.negative
  inUnitInterval : y.inUnitInterval = true
  exists_isNearest : ∃ k, IsNearest |l.value| k ∧ IsWithin 4 y.magnitude k ∧
    (-308 ≤ l.decimal.exponent → IsWithin 2 y.magnitude k)

/-- **The number of a literal from zero to one is near it.** -/
theorem exists_float?_isNear (hlow : 0 ≤ l.value) (hup : l.value ≤ 1)
    (hlength : l.chars.length < twoTo 30) : ∃ y, float? l = some y ∧ IsNear l y := by
  have hone : l.decimal.value ≤ 1 := by
    rwa [← abs_value, abs_of_nonneg hlow]
  obtain ⟨k, hfloat, hunit, hfour, htwo, hzero⟩ := exists_float? hone hlength
  have hk : k < twoTo 63 := hunit.trans_lt (by decide)
  have hmagnitude := Binary64.magnitude_ofMagnitude l.negative hk
  have hnegative := Binary64.isNegative_ofMagnitude l.negative hk
  refine ⟨_, hfloat, hnegative, ?_, l.decimal.magnitude, ?_, ?_, ?_⟩
  · rw [Binary64.inUnitInterval, hmagnitude, hnegative]
    cases hneg : l.negative with
    | false => simpa using .inr hunit
    | true => simpa using hzero (coefficient_eq_zero_of_negative hlow hneg)
  · rw [abs_value]
    exact l.decimal.isNearest_magnitude
  · rwa [hmagnitude]
  · rwa [hmagnitude]

/-- The number nearest to a literal, with its sign. -/
theorem isNearest_number (l : Literal) :
    l.number.isNegative = l.negative ∧ IsNearest |l.value| l.number.magnitude := by
  have hmagnitude : l.decimal.magnitude < twoTo 63 :=
    l.decimal.magnitude_le.trans_lt Binary64.infinity_lt
  rw [Literal.number, Binary64.isNegative_ofMagnitude _ hmagnitude,
    Binary64.magnitude_ofMagnitude _ hmagnitude, abs_value]
  exact ⟨rfl, l.decimal.isNearest_magnitude⟩

end BenchSweep.Json
