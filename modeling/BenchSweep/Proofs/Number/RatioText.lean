import BenchSweep.Proofs.Number.Fewest
import BenchSweep.Proofs.Number.Notation
import BenchSweep.Proofs.Number.Order

/-!
# The text of a ratio

The text of a finite number has digits on both sides of a point and no exponent, and it is read back
as the number, with its sign. So different numbers have different texts. Between zero and one, the
only whole numbers are the zeros of both signs and one; any other number has the digits of its
shortest decimal after the point, and no text that is read as the number has fewer of them.

## Why the statement is not about an algorithm

The text of a ratio is made from the shortest decimal, but this is how it is computed and not what a
reader of the results needs. What is needed is that the text is read back, that it is a plain number
with a point and without an exponent, and that it is as short as such a text can be. The last part
speaks of all texts that are read as the number. It would hold of any writer that is as good.

## Scope

Numbers that are infinite, and bits that are no number, have texts as well and are excluded by the
hypothesis: their texts have no digits. Whole numbers are written in full, which need not be the
shortest text where they are large; from zero to one, where ratios are, there are only three of
them.

## Main results

* `Binary64.exists_ratioChars_eq`: digits on both sides of a point.
* `Binary64.exists_ratioChars_eq_of_lt_one`: below one, the digits are those of the shortest
  decimal.
* `Binary64.ratioText_faithful`: the contract.
-/

namespace BenchSweep.Number

open Literal (signChars)

theorem getLast?_decimal_ne {n : ℕ} (hn : n % 10 ≠ 0) : (decimal n).getLast? ≠ some '0' := by
  intro h
  obtain ⟨s, hs⟩ := List.getLast?_eq_some_iff.1 h
  have hvalue := digitsValue_decimal n
  rw [hs, digitsValue_append] at hvalue
  have hzero : digitsValue (digitsValue 0 s) ['0'] = digitsValue 0 s * 10 := rfl
  omega

/-- The zeros between the point and the first digit do not count. -/
theorem significantDigits_zeros {n c : ℕ} (hc : c % 10 ≠ 0) :
    significantDigits ('0' :: '.' :: (List.replicate n '0' ++ decimal c)) = decimal c := by
  have hpos : 0 < c := by omega
  have hdigits : ∀ x ∈ List.replicate n '0' ++ decimal c, isDigit x = true :=
    List.forall_mem_append.2 ⟨fun _ => isDigit_of_mem_replicate, fun _ => isDigit_of_mem_decimal⟩
  have hmarks : ∀ x ∈ '0' :: '.' :: (List.replicate n '0' ++ decimal c),
      isExponentMark x = false := by
    simp only [List.forall_mem_cons]
    exact ⟨rfl, rfl, fun x hx => isExponentMark_of_isDigit (hdigits x hx)⟩
  have hmantissa : mantissaDigits ('0' :: '.' :: (List.replicate n '0' ++ decimal c)) =
      List.replicate (n + 1) '0' ++ decimal c := by
    have h := mantissaDigits_append_scaleChars hmarks none
    rw [Literal.scaleChars, List.append_nil, List.filter_cons_of_pos rfl,
      List.filter_cons_of_neg (by decide), List.filter_eq_self.2 hdigits] at h
    exact h
  rw [significantDigits, hmantissa, List.dropWhile_append_of_pos (by simp)]
  obtain ⟨d, t, hd⟩ := List.exists_cons_of_ne_nil (decimal_ne_nil c)
  have hfirst : d ≠ '0' := fun h => head?_decimal_ne hpos (by rw [hd, h]; rfl)
  rw [hd, List.dropWhile_cons_of_neg (by simpa using hfirst), ← hd, List.rdropWhile_eq_self_iff]
  intro hne hlast
  refine getLast?_decimal_ne hc ?_
  rw [List.getLast?_eq_some_getLast hne, of_decide_eq_true hlast]

namespace Binary64

variable {x : Binary64}

/-! ### What a number stands for -/

theorem toRat_pos_iff : 0 < x.toRat ↔ x.isNegative = false ∧ 0 < x.magnitude := by
  rw [toRat]
  cases x.isNegative with
  | true => simp [value_nonneg]
  | false =>
    rw [if_neg Bool.false_ne_true, ← value_zero, strictMono_value.lt_iff_lt]
    simp

theorem toRat_lt_one_iff (h : x.isNegative = false) : x.toRat < 1 ↔ x.magnitude < one := by
  rw [toRat, h, if_neg Bool.false_ne_true, ← value_one, strictMono_value.lt_iff_lt]

/-- A number is whole if it stands for a whole number. -/
theorem isWhole_iff : x.isWhole = true ↔ ∃ n : ℤ, x.toRat = n := by
  constructor
  · intro h
    rw [toRat, value_of_isWhole h]
    obtain ⟨n, hn⟩ : ∃ n, n = units x.magnitude / unitsPerOne := ⟨_, rfl⟩
    rw [← hn]
    split
    · exact ⟨-n, by push_cast; rfl⟩
    · exact ⟨n, by push_cast; rfl⟩
  · rintro ⟨n, hn⟩
    have habs : value x.magnitude = (n.natAbs : ℚ) := by
      have hvalue := value_nonneg x.magnitude
      rw [Nat.cast_natAbs, Int.cast_abs, ← hn, toRat]
      split
      · rw [abs_neg, abs_of_nonneg hvalue]
      · rw [abs_of_nonneg hvalue]
    rw [value, div_eq_iff unitsPerOne_pos'.ne'] at habs
    have hunits : units x.magnitude = n.natAbs * unitsPerOne := by exact_mod_cast habs
    rw [isWhole, hunits, Nat.mul_mod_left, decide_eq_true_eq]

/-! ### Digits -/

/-- The text of a finite ratio has digits on both sides of a point. -/
theorem exists_ratioChars_eq (h : x.isFinite = true) :
    ∃ whole fraction, x.ratioChars = signChars x.isNegative ++ (whole ++ '.' :: fraction) ∧
      whole ≠ [] ∧ fraction ≠ [] ∧ (∀ c ∈ whole, isDigit c = true) ∧
      ∀ c ∈ fraction, isDigit c = true := by
  have hfinite : x.magnitude < infinity := of_decide_eq_true h
  cases hwhole : x.isWhole with
  | true =>
    rw [ratioChars_of_isWhole h hwhole, withSign_eq]
    exact ⟨_, ['0'], rfl, decimal_ne_nil _, List.cons_ne_nil _ _, fun _ => isDigit_of_mem_decimal,
      List.forall_mem_singleton.2 rfl⟩
  | false =>
    have hpos := magnitude_pos_of_not_isWhole hwhole
    have hcoefficient := Decimal.coefficient_shortest_pos .up hpos hfinite
    have hdvd : ¬unitsPerOne ∣ units x.magnitude :=
      fun hdvd => of_decide_eq_false hwhole (Nat.mod_eq_zero_of_dvd hdvd)
    obtain ⟨e, he⟩ := Int.eq_negSucc_of_lt_zero (exponent_shortest_neg_of_not_dvd .up hfinite hdvd)
    obtain ⟨whole, fraction, htext, hne, hdigits, -, hdigits', hlength, -⟩ :=
      exists_positional_eq hcoefficient e
    rw [ratioChars_of_not_isWhole h hwhole, withSign_eq]
    refine ⟨whole, fraction, ?_, hne, List.ne_nil_of_length_eq_add_one hlength, hdigits, hdigits'⟩
    rw [← htext, ← he]

/-- Below one, the text is a zero, the point, zeros and the digits of the shortest decimal. -/
theorem exists_ratioChars_eq_of_lt_one (hneg : x.isNegative = false) (hpos : 0 < x.magnitude)
    (hlt : x.magnitude < one) :
    ∃ n, x.ratioChars =
      '0' :: '.' :: (List.replicate n '0' ++ decimal (shortest .up x.magnitude).coefficient) := by
  have hfinite : x.magnitude < infinity := hlt.trans (by decide)
  have hwhole : x.isWhole = false :=
    decide_eq_false fun h => not_dvd_units hpos hlt (Nat.dvd_of_mod_eq_zero h)
  obtain ⟨c, e, hd⟩ : ∃ c e, shortest .up x.magnitude = ⟨c, .negSucc e⟩ := by
    obtain ⟨e, he⟩ := Int.eq_negSucc_of_lt_zero (exponent_shortest_neg .up hpos hlt)
    exact ⟨_, e, by rw [← he]⟩
  have hmagnitude := Decimal.magnitude_shortest .up hfinite
  rw [hd] at hmagnitude
  have hvalue : Decimal.value ⟨c, .negSucc e⟩ < 1 := by
    by_contra hge
    have hle := (isNearest_value (show one ≤ infinity by decide)).le_of_le
      (Decimal.isNearest_magnitude _) (value_one.trans_le (not_lt.1 hge))
    omega
  have hlength : (decimal c).length ≤ e + 1 := by
    rw [Decimal.value_negSucc, div_lt_one (Nat.cast_pos.2 (tenTo_pos _)), Nat.cast_lt] at hvalue
    exact (length_decimal_le_iff (Nat.succ_pos e)).2 hvalue
  refine ⟨e + 1 - (decimal c).length, ?_⟩
  rw [ratioChars_of_not_isWhole (decide_eq_true hfinite) hwhole, hd, withSign, hneg, positional]
  simp [Nat.not_lt.2 hlength]

/-- The whole numbers that a ratio may be are the zeros of both signs and one. -/
theorem ratioText_of_isWhole (hunit : x.inUnitInterval = true) (h : x.isWhole = true) :
    x = ofMagnitude false 0 ∧ x.ratioText = "0.0" ∨
      x = ofMagnitude true 0 ∧ x.ratioText = "-0.0" ∨
      x = ofMagnitude false one ∧ x.ratioText = "1.0" := by
  have hdvd : unitsPerOne ∣ units x.magnitude := Nat.dvd_of_mod_eq_zero (of_decide_eq_true h)
  have hx := ofMagnitude_magnitude x
  rw [inUnitInterval, Bool.or_eq_true, Bool.and_eq_true, decide_eq_true_eq, decide_eq_true_eq,
    Bool.not_eq_true'] at hunit
  rcases hunit with hzero | ⟨hneg, hle⟩
  · rw [hzero] at hx
    cases hneg : x.isNegative <;> rw [hneg] at hx <;> subst hx
    · exact .inl ⟨rfl, by decide +kernel⟩
    · exact .inr (.inl ⟨rfl, by decide +kernel⟩)
  rw [hneg] at hx
  rcases Nat.eq_zero_or_pos x.magnitude with hzero | hpos
  · rw [hzero] at hx
    subst hx
    exact .inl ⟨rfl, by decide +kernel⟩
  rcases hle.eq_or_lt with hone | hlt
  · rw [hone] at hx
    subst hx
    exact .inr (.inr ⟨rfl, by decide +kernel⟩)
  · exact absurd hdvd (not_dvd_units hpos hlt)

/-- Below one, the text is a zero, the point and digits that do not end in a zero, and no text that
is read as the number has fewer significant digits. -/
theorem ratioChars_fewest (hpos : 0 < x.toRat) (hlt : x.toRat < 1) :
    ∃ fraction, x.ratioChars = '0' :: '.' :: fraction ∧ fraction ≠ [] ∧
      (∀ c ∈ fraction, isDigit c = true) ∧ fraction.getLast? ≠ some '0' ∧
      ∀ text, readBinary64 text = .ok x →
        (significantDigits x.ratioChars).length ≤ (significantDigits text).length := by
  obtain ⟨hneg, hpos⟩ := toRat_pos_iff.1 hpos
  have hlt := (toRat_lt_one_iff hneg).1 hlt
  have hfinite : x.magnitude < infinity := hlt.trans (by decide)
  have hmod := shortest_mod_ten .up hpos hfinite
  obtain ⟨n, hn⟩ := exists_ratioChars_eq_of_lt_one hneg hpos hlt
  refine ⟨_, hn, List.append_ne_nil_of_right_ne_nil _ (decimal_ne_nil _), List.forall_mem_append.2
    ⟨fun _ => isDigit_of_mem_replicate, fun _ => isDigit_of_mem_decimal⟩, ?_, fun text htext => ?_⟩
  · rw [List.getLast?_append_of_ne_nil _ (decimal_ne_nil _)]
    exact getLast?_decimal_ne hmod
  · rw [hn, significantDigits_zeros hmod]
    exact length_shortest_le_of_readBinary64 .up hpos hfinite htext

/-- **The text of a ratio.** The text of a finite number has digits on both sides of a point and no
exponent. It is read back as the number, so no other finite number has the same text. From zero to
one, whole numbers have one of three texts. Any other number is written with a zero before the
point and no zero at the end, and no text that is read as the number has fewer significant
digits. -/
theorem ratioText_faithful (h : x.isFinite = true) :
    (∃ whole fraction, x.ratioText.toList = signChars x.isNegative ++ (whole ++ '.' :: fraction) ∧
      whole ≠ [] ∧ fraction ≠ [] ∧ (∀ c ∈ whole, isDigit c = true) ∧
        ∀ c ∈ fraction, isDigit c = true) ∧
    readBinary64 x.ratioText.toList = .ok x ∧
    (∀ y : Binary64, y.isFinite = true → y.ratioText = x.ratioText → y = x) ∧
    (x.inUnitInterval = true → (∃ n : ℤ, x.toRat = n) →
      x = ofMagnitude false 0 ∧ x.ratioText = "0.0" ∨
        x = ofMagnitude true 0 ∧ x.ratioText = "-0.0" ∨
        x = ofMagnitude false one ∧ x.ratioText = "1.0") ∧
    (0 < x.toRat → x.toRat < 1 →
      ∃ fraction, x.ratioText.toList = '0' :: '.' :: fraction ∧ fraction ≠ [] ∧
        (∀ c ∈ fraction, isDigit c = true) ∧ fraction.getLast? ≠ some '0' ∧
        ∀ text, readBinary64 text = .ok x →
          (significantDigits x.ratioText.toList).length ≤ (significantDigits text).length) := by
  have htext (y : Binary64) : y.ratioText.toList = y.ratioChars := String.toList_ofList
  simp only [htext]
  refine ⟨exists_ratioChars_eq h, readBinary64_ratioChars h, fun y hy heq => ?_,
    fun hunit hn => ratioText_of_isWhole hunit (isWhole_iff.2 hn), ratioChars_fewest⟩
  have hread := readBinary64_ratioChars hy
  rw [← htext, heq, htext, readBinary64_ratioChars h] at hread
  exact (Except.ok.inj hread).symm

/-- The general theorem at the number nearest to three tenths. -/
theorem ratioText_faithful_three_tenths :
    let x : Binary64 := ⟨0x3FD3333333333333⟩
    x.isFinite = true ∧ x.ratioText = "0.3" ∧ readBinary64 x.ratioText.toList = .ok x ∧
      ∀ text, readBinary64 text = .ok x →
        (significantDigits x.ratioText.toList).length ≤ (significantDigits text).length := by
  intro x
  have hpos : 0 < x.toRat := toRat_pos_iff.2 (by decide)
  have hlt : x.toRat < 1 := (toRat_lt_one_iff (by decide)).2 (by decide)
  have hfinite : x.isFinite = true := by decide
  obtain ⟨-, hread, -, -, hfewest⟩ := ratioText_faithful hfinite
  obtain ⟨-, -, -, -, -, hle⟩ := hfewest hpos hlt
  exact ⟨hfinite, by decide +kernel, hread, hle⟩

end Binary64

end BenchSweep.Number
