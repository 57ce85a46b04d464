import BenchSweep.Proofs.Number.Error
import BenchSweep.Proofs.Number.Grammar
import BenchSweep.Proofs.Number.Shortest
import Mathlib.Data.List.DropRight

/-!
# The shortest decimal has the fewest digits

No decimal that reads back to a magnitude has fewer digits than the shortest one, whatever its
exponent is. A decimal of few digits stands on the grid of so many digits, unless it is on the other
side of a power of ten, which then reads back itself; and the grid of seventeen digits is finer than
the magnitudes are, so the search ends on it at the latest. The same holds of texts: leading zeros,
zeros at the end, signs, the point and the exponent do not help to save digits.

## Why the grids are compared

Grids of few digits are tried before grids of many, so it has to be excluded that a decimal of few
digits lies on a grid that was not tried. The exponent of the first digit is that of the magnitude
itself, and a decimal that reads back may be on the other side of a power of ten, where its grid is
another one. Then the power of ten lies between the two, reads back as well, and has one digit. This
is the only case in which the grid is not the expected one.

## Why texts are stripped

A text may have any number of zeros at either end of its digits, and they say nothing. So digits are
counted from the first that is not zero to the last one, in front of the exponent. The result is
then about all texts that are read as the number, and not about those that some writer makes.

## Main definitions

* `significantDigits`: the digits of a text that count.

## Main results

* `exists_magnitude_eq_of_seventeen`: seventeen digits suffice.
* `length_shortest_le`: no decimal that reads back has fewer digits than the shortest.
* `length_shortest_le_of_readBinary64`: no text that is read as the number has fewer either.
-/

namespace BenchSweep.Number

open Literal (scaleChars)
open Binary64 (IsNearest gap gap_le_gap infinity isNearest_of_lt_of_lt isNearest_value
  strictMono_units units unitsPerOne unitsPerOne_pos unitsPerOne_pos')

/-! ### Enough digits -/

theorem Decimal.value_succ (c : ℕ) (e : ℤ) : value ⟨c + 1, e⟩ = value ⟨c, e⟩ + 10 ^ e := by
  rw [value, value, Nat.cast_succ, add_one_mul]

/-- Steps of seventeen digits are smaller than those between neighbours. -/
theorem zpow_lt_gap {k : ℕ} {lead : ℤ} (hlow : 10 ^ lead ≤ Binary64.value (k + 1)) :
    (10 : ℚ) ^ (lead - (16 : ℕ)) < gap k / unitsPerOne := by
  have hpos : 0 < Binary64.value (k + 1) := Binary64.value_pos (Nat.succ_pos k)
  have htwo : (0 : ℚ) < twoTo 53 := Nat.cast_pos.2 (twoTo_pos 53)
  calc (10 : ℚ) ^ (lead - (16 : ℕ)) = 10 ^ lead / tenTo 16 := by
        rw [zpow_sub₀ (by norm_num), zpow_ten_eq]
    _ ≤ Binary64.value (k + 1) / tenTo 16 :=
        div_le_div_of_nonneg_right hlow (Nat.cast_nonneg _)
    _ < Binary64.value (k + 1) / twoTo 53 :=
        div_lt_div_of_pos_left hpos htwo (Nat.cast_lt.2 (by decide))
    _ ≤ gap k / unitsPerOne := (div_le_iff₀' htwo).2 (Binary64.value_succ_le k)

/-- What is off by half a step that is smaller than those between neighbours reads back. -/
theorem Decimal.magnitude_eq_of_abs_le {d : Decimal} {k : ℕ} {step : ℚ} (hk : k + 1 < infinity)
    (hstep : step < gap k / unitsPerOne)
    (h : |2 * d.value - 2 * Binary64.value (k + 1)| ≤ step) : d.magnitude = k + 1 := by
  have hgap : (gap k / unitsPerOne : ℚ) ≤ gap (k + 1) / unitsPerOne :=
    div_le_div_of_nonneg_right (Nat.cast_le.2 (gap_le_gap (Nat.le_succ k))) unitsPerOne_pos'.le
  have hbelow := Binary64.value_succ k
  have habove := Binary64.value_succ (k + 1)
  obtain ⟨hlow, hup⟩ := abs_le.1 h
  refine d.isNearest_magnitude.unique (isNearest_of_lt_of_lt hk.le ?_ fun j hj => ?_)
  · linarith
  · obtain rfl : k = j := Nat.succ.inj hj
    linarith

/-- **Seventeen digits suffice.** The nearer one of the two neighbours on the grid reads back. -/
theorem exists_magnitude_eq_of_seventeen {k : ℕ} (hpos : 0 < k) (hk : k < infinity) :
    ∃ c, (Decimal.mk c (leadingExponent (units k) unitsPerOne - (16 : ℕ))).magnitude = k := by
  obtain ⟨j, rfl⟩ : ∃ j, k = j + 1 := ⟨k - 1, by omega⟩
  have hunits : 0 < units (j + 1) := Binary64.units_zero ▸ strictMono_units hpos
  obtain ⟨e, he⟩ : ∃ e, e = leadingExponent (units (j + 1)) unitsPerOne - (16 : ℕ) := ⟨_, rfl⟩
  have hstep : (10 : ℚ) ^ e < gap j / unitsPerOne :=
    he ▸ zpow_lt_gap (leadingExponent_spec hunits unitsPerOne_pos).1
  obtain ⟨c, hc⟩ : ∃ c, c = floorSteps (units (j + 1)) unitsPerOne e := ⟨_, rfl⟩
  obtain ⟨hfloor, hceil⟩ := floorSteps_spec (units (j + 1)) unitsPerOne_pos e
  rw [← Binary64.value, ← hc] at hfloor hceil
  have hsucc := Decimal.value_succ c e
  rw [← he]
  rcases le_total (2 * Binary64.value (j + 1)) (2 * Decimal.value ⟨c, e⟩ + 10 ^ e) with h | h
  · refine ⟨c, Decimal.magnitude_eq_of_abs_le hk hstep (abs_le.2 ⟨?_, ?_⟩)⟩ <;> linarith
  · refine ⟨c + 1, Decimal.magnitude_eq_of_abs_le hk hstep (abs_le.2 ⟨?_, ?_⟩)⟩ <;> linarith

/-! ### The fewest digits -/

/-- A number of few digits that reads back is on the grid of so many digits, or the power of ten
before it or after it on the way to the magnitude reads back as well. -/
theorem exists_magnitude_eq_of_lt_tenTo {d : Decimal} {k m : ℕ} {lead : ℤ}
    (hpos : 0 < d.coefficient) (hm : d.coefficient < tenTo m) (hk : k < infinity)
    (h : d.magnitude = k) (hlow : 10 ^ lead ≤ Binary64.value k)
    (hup : Binary64.value k < 10 ^ (lead + 1)) :
    ∃ n < m, ∃ c, (Decimal.mk c (lead - (n : ℕ))).magnitude = k := by
  have hten : (1 : ℚ) < 10 := by norm_num
  have hself : IsNearest (Binary64.value k) k := isNearest_value hk.le
  have hd : IsNearest d.value k := h ▸ d.isNearest_magnitude
  have hm' : 0 < m := by
    refine Nat.pos_of_ne_zero fun hzero => ?_
    rw [hzero, tenTo_zero] at hm
    omega
  have hpower (i : ℕ) : Decimal.value ⟨tenTo i, lead - (0 : ℕ)⟩ = 10 ^ (i + lead) := by
    rw [Decimal.value_tenTo, Nat.cast_zero, sub_zero]
  rcases lt_or_ge d.value (10 ^ lead) with hpast | hfirst
  · have hvalue : Decimal.value ⟨tenTo 0, lead - (0 : ℕ)⟩ = 10 ^ lead := by
      rw [hpower, Nat.cast_zero, zero_add]
    exact ⟨0, hm', tenTo 0, Decimal.magnitude_eq_of_between hd hself (hvalue ▸ hpast.le)
      (hvalue ▸ hlow)⟩
  rcases le_or_gt (10 ^ (lead + 1)) d.value with hpast | hlast
  · have hvalue : Decimal.value ⟨tenTo 1, lead - (0 : ℕ)⟩ = 10 ^ (lead + 1) := by
      rw [hpower, Nat.cast_one, add_comm]
    exact ⟨0, hm', tenTo 1, Decimal.magnitude_eq_of_between hself hd (hvalue ▸ hup.le)
      (hvalue ▸ hpast)⟩
  · have hvalue : d.value < 10 ^ ((m : ℤ) + d.exponent) := by
      rw [← Decimal.value_tenTo]
      exact mul_lt_mul_of_pos_right (Nat.cast_lt.2 hm) (zpow_ten_pos _)
    have hlead := (zpow_lt_zpow_iff_right₀ hten).1 (hfirst.trans_lt hvalue)
    obtain ⟨i, hi⟩ : ∃ i : ℕ, d.exponent = i + (lead - (m - 1 : ℕ)) :=
      ⟨(d.exponent - (lead - (m - 1 : ℕ))).toNat, by omega⟩
    refine ⟨m - 1, by omega, d.coefficient * tenTo i, h ▸ Decimal.magnitude_congr ?_⟩
    rw [Decimal.value_mul_tenTo, ← hi]

theorem Decimal.stripZeros_mod_ten {c : ℕ} (hc : 0 < c) (e : ℤ) :
    (stripZeros c e).coefficient % 10 ≠ 0 := by
  fun_induction stripZeros c e with
  | case1 c e h ih => exact ih (by omega)
  | case2 c e h =>
    dsimp only
    omega

section Magnitude

variable (tie : Tie) {k : ℕ} (hpos : 0 < k) (hk : k < infinity)
include hpos hk

/-- The shortest decimal has no zero at its end. -/
theorem shortest_mod_ten : (shortest tie k).coefficient % 10 ≠ 0 := by
  have hcoefficient := Decimal.coefficient_shortest_pos tie hpos hk
  unfold shortest at hcoefficient ⊢
  exact Decimal.stripZeros_mod_ten (hcoefficient.trans_le (Decimal.stripZeros_bounds _ _).1) _

/-- **No decimal that reads back has fewer digits than the shortest.** -/
theorem length_shortest_le {d : Decimal} (h : d.magnitude = k) :
    (decimal (shortest tie k).coefficient).length ≤ (decimal d.coefficient).length := by
  have hunits : 0 < units k := Binary64.units_zero ▸ strictMono_units hpos
  obtain ⟨hlow, hup⟩ := leadingExponent_spec hunits unitsPerOne_pos
  have hd : 0 < d.coefficient := Decimal.coefficient_pos (h ▸ hpos)
  obtain ⟨n, hn, hmost, c, hc⟩ : ∃ n < (decimal d.coefficient).length, n < mostDigits ∧
      ∃ c, (Decimal.mk c (leadingExponent (units k) unitsPerOne - n)).magnitude = k := by
    rcases Nat.lt_or_ge (decimal d.coefficient).length mostDigits with hlt | hge
    · obtain ⟨n, hn, hc⟩ :=
        exists_magnitude_eq_of_lt_tenTo hd (lt_tenTo_length_decimal _) hk h hlow hup
      exact ⟨n, hn, hn.trans hlt, hc⟩
    · exact ⟨16, hge, by decide, exists_magnitude_eq_of_seventeen hpos hk⟩
  obtain ⟨hle, -⟩ := shortest_bounds tie hpos hk hmost hc
  have hne : (shortest tie k).coefficient ≠ tenTo (n + 1) := fun heq =>
    shortest_mod_ten tie hpos hk (by rw [heq, tenTo_succ, Nat.mul_mod_left])
  have hlength := (length_decimal_le_iff (Nat.succ_pos n)).2 (hle.lt_of_ne hne)
  omega

end Magnitude

/-! ### Significant digits -/

/-- The letters that start an exponent. -/
def isExponentMark (c : Char) : Bool :=
  c = 'e' || c = 'E'

/-- The digits of a text up to its exponent. -/
def mantissaDigits (text : List Char) : List Char :=
  (text.takeWhile fun c => !isExponentMark c).filter isDigit

/-- The digits of a text, up to its exponent, without the zeros at either end. -/
def significantDigits (text : List Char) : List Char :=
  ((mantissaDigits text).dropWhile (· = '0')).rdropWhile (· = '0')

/-- An exponent has no significant digits. -/
theorem mantissaDigits_append_scaleChars {text : List Char}
    (h : ∀ c ∈ text, isExponentMark c = false) (scale : Option Scale) :
    mantissaDigits (text ++ scaleChars scale) = text.filter isDigit := by
  have hscale : (scaleChars scale).takeWhile (fun c => !isExponentMark c) = [] := by
    cases scale with
    | none => rfl
    | some s => cases hs : s.capital <;> simp [scaleChars, Scale.chars, hs, isExponentMark]
  rw [mantissaDigits, List.takeWhile_append_of_pos (by simpa using h), hscale, List.append_nil]

theorem isExponentMark_of_isDigit {c : Char} (h : isDigit c = true) : isExponentMark c = false := by
  simp [isExponentMark, isDigit_ne h (show isDigit 'e' = false by decide),
    isDigit_ne h (show isDigit 'E' = false by decide)]

/-- Signs and points are no digits. -/
theorem mantissaDigits_of_readDecimal? {sign size : List Char} {d : Decimal} (hsign : IsSign sign)
    (h : readDecimal? size = some d) :
    d.coefficient = digitsValue 0 (mantissaDigits (sign ++ size)) := by
  obtain ⟨whole, fraction, scale, -, hwhole, hfraction, hd, hsize⟩ :=
    exists_digits_of_readDecimal? h
  obtain ⟨hmark, hfilter⟩ :
      (∀ c ∈ sign, isExponentMark c = false) ∧ sign.filter isDigit = [] := by
    cases hsign with
    | none => exact ⟨fun _ hc => absurd hc List.not_mem_nil, rfl⟩
    | plus => exact ⟨List.forall_mem_singleton.2 rfl, rfl⟩
    | minus => exact ⟨List.forall_mem_singleton.2 rfl, rfl⟩
  have hmarks {s : List Char} (hs : ∀ c ∈ s, isDigit c = true) :
      ∀ c ∈ s, isExponentMark c = false :=
    fun c hc => isExponentMark_of_isDigit (hs c hc)
  have hpoint : isDigit '.' = false := by decide
  rw [hd]
  congr 1
  rcases hsize with rfl | ⟨rfl, rfl⟩
  · have hassoc : sign ++ (whole ++ '.' :: (fraction ++ scaleChars scale)) =
        sign ++ (whole ++ '.' :: fraction) ++ scaleChars scale := by simp
    rw [hassoc, mantissaDigits_append_scaleChars, List.filter_append, List.filter_append, hfilter,
      List.filter_cons_of_neg (by simp [hpoint]), List.filter_eq_self.2 hwhole,
      List.filter_eq_self.2 hfraction, List.nil_append]
    simp only [List.forall_mem_append, List.forall_mem_cons]
    exact ⟨hmark, hmarks hwhole, rfl, hmarks hfraction⟩
  · rw [← List.append_assoc, mantissaDigits_append_scaleChars, List.filter_append, hfilter,
      List.filter_eq_self.2 hwhole, List.nil_append, List.append_nil]
    exact List.forall_mem_append.2 ⟨hmark, hmarks hwhole⟩

theorem Unsigned.magnitude_lt (u : Unsigned) : u.magnitude < twoTo 63 := by
  cases u with
  | decimal d => exact d.magnitude_le.trans_lt Binary64.infinity_lt
  | infinity => exact Binary64.infinity_lt
  | nan => decide

theorem readDecimal?_of_readUnsigned? {s : List Char} {u : Unsigned}
    (h : readUnsigned? s = some u) (hu : u.magnitude < infinity) :
    ∃ d, readDecimal? s = some d ∧ u = .decimal d := by
  unfold readUnsigned? at h
  split at h
  · next d hd =>
    cases h
    exact ⟨d, hd, rfl⟩
  -- the words stand for no finite number
  · exfalso
    split at h <;> cases h <;> exact absurd hu (by decide)

/-- A text that is read as a finite number has the digits of a decimal that reads back. -/
theorem exists_decimal_of_readBinary64 {text : List Char} {x : Binary64}
    (hx : x.magnitude < infinity) (h : readBinary64 text = .ok x) :
    ∃ d : Decimal, d.magnitude = x.magnitude ∧
      d.coefficient = digitsValue 0 (mantissaDigits text) := by
  unfold readBinary64 at h
  split at h
  · cases h
  split at h
  · next n hn =>
    cases h
    obtain ⟨sign, size, rfl, hsign, hsize⟩ := exists_sign_of_read? hn
    have hmagnitude : n.value.magnitude = n.size.magnitude :=
      Binary64.magnitude_ofMagnitude _ n.size.magnitude_lt
    obtain ⟨d, hd, hsize⟩ := readDecimal?_of_readUnsigned? hsize (hmagnitude ▸ hx)
    refine ⟨d, ?_, mantissaDigits_of_readDecimal? hsign hd⟩
    rw [hmagnitude, hsize, Unsigned.magnitude]
  · cases h

/-- Zeros at the ends do not count. -/
theorem exists_eq_significantDigits (text : List Char) :
    ∃ m n, mantissaDigits text =
      List.replicate m '0' ++ (significantDigits text ++ List.replicate n '0') := by
  have hzeros {s : List Char} (hs : ∀ c ∈ s, decide (c = '0') = true) :
      s = List.replicate s.length '0' :=
    List.eq_replicate_of_mem fun c hc => of_decide_eq_true (hs c hc)
  obtain ⟨digits, hdigits⟩ : ∃ digits, digits = mantissaDigits text := ⟨_, rfl⟩
  refine ⟨(digits.takeWhile (· = '0')).length,
    ((digits.dropWhile (· = '0')).rtakeWhile (· = '0')).length, ?_⟩
  rw [← hzeros fun _ => List.mem_takeWhile_imp, ← hzeros fun _ => List.mem_rtakeWhile_imp,
    significantDigits, ← hdigits, List.rdropWhile_append_rtakeWhile,
    List.takeWhile_append_dropWhile]

example : significantDigits "-00.0250e-7".toList = ['2', '5'] := by
  decide

/-- **No text that is read as a number has fewer significant digits than its shortest decimal.** -/
theorem length_shortest_le_of_readBinary64 (tie : Tie) {text : List Char} {x : Binary64}
    (hpos : 0 < x.magnitude) (hx : x.magnitude < infinity) (h : readBinary64 text = .ok x) :
    (decimal (shortest tie x.magnitude).coefficient).length ≤ (significantDigits text).length := by
  obtain ⟨d, hd, hcoefficient⟩ := exists_decimal_of_readBinary64 hx h
  obtain ⟨m, n, hdigits⟩ := exists_eq_significantDigits text
  have hisDigit : ∀ c ∈ significantDigits text, isDigit c = true := by
    intro c hc
    have hmem : c ∈ mantissaDigits text :=
      hdigits ▸ List.mem_append_right _ (List.mem_append_left _ hc)
    exact (List.mem_filter.1 hmem).2
  obtain ⟨v, hv⟩ : ∃ v, v = digitsValue 0 (significantDigits text) := ⟨_, rfl⟩
  have hvalue : d.coefficient = v * tenTo n := by
    rw [hcoefficient, hdigits, digitsValue_append, digitsValue_append, digitsValue_replicate_zero,
      digitsValue_replicate_zero, Nat.zero_mul, hv]
  have hread : (Decimal.mk v (n + d.exponent)).magnitude = x.magnitude := by
    rw [← hd]
    refine Decimal.magnitude_congr ?_
    rw [← Decimal.value_mul_tenTo, ← hvalue]
  refine (length_shortest_le tie hpos hx hread).trans ?_
  have hne : 0 < (significantDigits text).length := by
    refine List.length_pos_of_ne_nil fun hnil => ?_
    rw [hnil] at hv
    exact (Decimal.coefficient_pos (hread ▸ hpos)).ne' hv
  exact (length_decimal_le_iff hne).2 (hv ▸ digitsValue_lt hisDigit)

end BenchSweep.Number
