import BenchSweep.Proofs.Number.Error
import BenchSweep.Proofs.Number.Literal
import BenchSweep.Proofs.Number.Shortest

/-!
# Numbers in a configuration are literals

A number in a configuration is written positionally or in scientific notation. Both are literals of
the shortest decimal, so reading loses nothing that the shortest decimal has.

## Why numbers from zero to one

A ratio in a configuration is written with an exponent if it is small, and positionally otherwise.
Very large numbers are written with an exponent too, but no ratio that the check accepts is of this
kind, and the round trip of a configuration is stated for short ratios. A number that is not whole
has a negative exponent in its shortest decimal, so its positional text has a point in it.

## Main definitions

* `Scale.ofInt`: the exponent of a literal in scientific notation.

## Main results

* `Binary64.exists_literal_scientific`: a decimal in scientific notation is a literal.
* `Binary64.exponent_shortest_neg_of_not_dvd`: a number that is not whole is written with a point.
* `Binary64.exists_literal_jsonChars`: what is written for a number from zero to one is a literal.
-/

namespace BenchSweep.Number

/-- A signed exponent in digits. -/
def Scale.ofInt (e : ℤ) : Scale :=
  ⟨false, some (decide (e < 0)), decimal e.natAbs, decimal_ne_nil _,
    fun _ => isDigit_of_mem_decimal⟩

theorem Scale.size_ofInt (e : ℤ) : (ofInt e).size = e.natAbs :=
  digitsValue_decimal _

theorem Scale.value_ofInt (e : ℤ) : (ofInt e).value = e := by
  rw [Scale.value, size_ofInt, Scale.isNegative, ofInt]
  rcases lt_or_ge e 0 with hneg | hpos
  · rw [if_pos (by simpa using hneg)]
    omega
  · rw [if_neg (by simpa using hpos)]
    omega

theorem Scale.chars_ofInt (e : ℤ) :
    (ofInt e).chars = 'e' :: (if e < 0 then '-' else '+') :: decimal e.natAbs := by
  rw [Scale.chars, ofInt]
  rcases lt_or_ge e 0 with hneg | hpos
  · simp [hneg, Scale.signChars]
  · simp [hpos.not_gt, Scale.signChars]

/-- The exponent of the first digit of a decimal. -/
def Decimal.firstExponent (d : Decimal) : ℤ :=
  d.exponent + ((Number.decimal d.coefficient).length - 1 : ℕ)

namespace Binary64

open Literal (signChars)
open Decimal (coefficient_shortest_pos isNearest_magnitude magnitude_shortest)

/-- A decimal in scientific notation is a literal. -/
theorem exists_literal_scientific (negative : Bool) (d : Decimal) :
    ∃ l : Literal, l.negative = negative ∧ l.chars = signChars negative ++ scientific d ∧
      l.decimal = d ∧ l.scale = some (.ofInt d.firstExponent) := by
  obtain ⟨c, t, hc⟩ := List.exists_cons_of_ne_nil (decimal_ne_nil d.coefficient)
  have hdigits : ∀ x ∈ c :: t, isDigit x = true := hc ▸ fun _ => isDigit_of_mem_decimal
  have hfirst : d.firstExponent = d.exponent + (t.length : ℤ) := by
    rw [Decimal.firstExponent, hc, List.length_cons, Nat.add_sub_cancel]
  have hzero : [c].head? = some '0' → [c] = ['0'] := fun h => by rw [Option.some.inj h]
  refine ⟨⟨negative, [c], t, some (.ofInt d.firstExponent), by simp,
    by simpa using hdigits c List.mem_cons_self, hzero,
    fun x hx => hdigits x (List.mem_cons_of_mem c hx)⟩, rfl, ?_, ?_, rfl⟩
  · rw [Literal.chars, Literal.tail, Literal.scaleChars, Literal.fractionChars, Scale.chars_ofInt,
      Decimal.firstExponent]
    simp only [scientific, hc]
    cases t with
    | nil => rfl
    | cons x t => simp
  · rw [Literal.decimal, Literal.scaleValue, Scale.value_ofInt, hfirst, add_sub_cancel_right]
    dsimp only
    rw [List.cons_append, List.nil_append, ← hc, digitsValue_decimal]

/-! ### Numbers from zero to one -/

theorem shortest_one (tie : Tie) : shortest tie one = ⟨1, 0⟩ := by
  cases tie <;> decide +kernel

theorem twoTo_dvd_twoTo {m n : ℕ} (h : m ≤ n) : twoTo m ∣ twoTo n :=
  Nat.pow_dvd_pow 2 h

/-- From `2 ^ 52` on, all numbers are whole. -/
theorem unitsPerOne_dvd_units {k : ℕ} (h : 1074 * twoTo 52 + twoTo 52 ≤ k) :
    unitsPerOne ∣ units k := by
  have hstep : 1074 ≤ k / twoTo 52 - 1 := by
    have := (Nat.le_div_iff_mul_le (twoTo_pos 52)).2 ((Nat.succ_mul 1074 (twoTo 52)).trans_le h)
    omega
  rw [units, if_neg (by omega)]
  exact Dvd.dvd.mul_left (twoTo_dvd_twoTo hstep) _

theorem value_twoTo_fiftyTwo : value (1074 * twoTo 52 + twoTo 52) = twoTo 52 := by
  have hle : twoTo 52 ≤ 2 * twoTo 52 := Nat.le_mul_of_pos_left _ two_pos
  rw [value, units_mul_add hle (.inr le_rfl), div_eq_iff unitsPerOne_pos'.ne', Nat.cast_mul]
  rfl

/-- The shortest decimal of a number that is not whole has places. -/
theorem exponent_shortest_neg_of_not_dvd (tie : Tie) {k : ℕ} (hk : k < infinity)
    (h : ¬unitsPerOne ∣ units k) : (shortest tie k).exponent < 0 := by
  by_contra hexponent
  obtain ⟨n, hn⟩ := Int.eq_ofNat_of_zero_le (not_lt.1 hexponent)
  obtain ⟨m, hm⟩ : ∃ m, m = (shortest tie k).coefficient * tenTo n := ⟨_, rfl⟩
  have hnearest : IsNearest (m : ℚ) k := by
    have hself := (shortest tie k).isNearest_magnitude
    rwa [magnitude_shortest tie hk, Decimal.value, hn, zpow_ten_eq, ← Nat.cast_mul, ← hm] at hself
  rcases Nat.lt_or_ge m (twoTo 53) with hlt | hge
  · -- a whole number of so few digits is the number itself
    obtain ⟨k', hk', hvalue⟩ := exists_value_eq hlt (Nat.zero_le 971)
    rw [twoTo_zero, Nat.cast_one, mul_one] at hvalue
    obtain rfl : k = k' := hnearest.unique (hvalue ▸ isNearest_value hk'.le)
    rw [value, div_eq_iff unitsPerOne_pos'.ne'] at hvalue
    exact h (Dvd.intro_left m (by exact_mod_cast hvalue.symm))
  · have htwo : twoTo 52 ≤ m := (twoTo_le_twoTo (by decide)).trans hge
    have hle : value (1074 * twoTo 52 + twoTo 52) ≤ m := value_twoTo_fiftyTwo ▸ Nat.cast_le.2 htwo
    exact h (unitsPerOne_dvd_units ((isNearest_value (by decide)).le_of_le hnearest hle))

/-- There is no whole number between zero and one. -/
theorem not_dvd_units {k : ℕ} (hpos : 0 < k) (hk : k < one) : ¬unitsPerOne ∣ units k := by
  have hone : units one = unitsPerOne := by
    have h := value_one
    rw [value, div_eq_one_iff_eq unitsPerOne_pos'.ne'] at h
    exact_mod_cast h
  exact Nat.not_dvd_of_pos_of_lt (units_zero ▸ strictMono_units hpos) (hone ▸ strictMono_units hk)

/-- Below one, the shortest decimal has places. -/
theorem exponent_shortest_neg (tie : Tie) {k : ℕ} (hpos : 0 < k) (hk : k < one) :
    (shortest tie k).exponent < 0 :=
  exponent_shortest_neg_of_not_dvd tie (hk.trans (by decide)) (not_dvd_units hpos hk)

theorem exists_literal_zero_or_one (negative : Bool) {n : ℕ} (hn : n ≤ 1) :
    ∃ l : Literal, l.negative = negative ∧ l.scale = none ∧
      l.chars = signChars negative ++ (decimal n ++ ['.', '0']) ∧ l.decimal = ⟨n * 10, -1⟩ := by
  have hzero : (decimal n).head? = some '0' → decimal n = ['0'] := by
    rcases Nat.le_one_iff_eq_zero_or_eq_one.1 hn with rfl | rfl <;> decide
  have h := exists_literal_whole negative (decimal_ne_nil n) (fun _ => isDigit_of_mem_decimal) hzero
  rwa [digitsValue_decimal] at h

/-- **What is written for a number from zero to one is a literal.** It denotes the shortest decimal;
zero and one have a point and a zero after them. -/
theorem exists_literal_jsonChars {x : Binary64} (hone : x.magnitude ≤ one) :
    ∃ l : Literal, l.negative = x.isNegative ∧ l.chars = x.jsonChars ∧
      l.decimal.magnitude = x.magnitude ∧
      (l.decimal.coefficient ≤ 10 ∧ l.decimal.exponent = -1 ∨
        0 < x.magnitude ∧ l.decimal = shortest .even x.magnitude ∧ l.decimal.exponent < 0) ∧
      (l.scale = none ∨ l.scale = some (.ofInt l.decimal.firstExponent)) := by
  rcases Nat.eq_zero_or_pos x.magnitude with hzero | hpos
  · obtain ⟨l, hn, hs, hc, hd⟩ := exists_literal_zero_or_one x.isNegative (Nat.zero_le 1)
    refine ⟨l, hn, ?_, ?_, .inl (by simp [hd]), .inl hs⟩
    · rw [hc, jsonChars, withSign_eq, if_pos hzero]
      rfl
    · rw [hd, hzero]
      rfl
  rcases hone.eq_or_lt with heq | hlt
  · obtain ⟨l, hn, hs, hc, hd⟩ := exists_literal_zero_or_one x.isNegative le_rfl
    refine ⟨l, hn, ?_, ?_, .inl (by simp [hd]), .inl hs⟩
    · rw [hc, jsonChars, withSign_eq, if_neg hpos.ne', heq, shortest_one]
      rfl
    · rw [hd, heq]
      decide +kernel
  have hfinite : x.magnitude < infinity := hlt.trans (by decide)
  have hexponent := exponent_shortest_neg .even hpos hlt
  rw [jsonChars, withSign_eq, if_neg hpos.ne']
  dsimp only
  split
  · obtain ⟨l, hn, hs, hc, -, hd⟩ :=
      exists_literal_positional x.isNegative (coefficient_shortest_pos .even hpos hfinite)
    have hd := hd hexponent
    refine ⟨l, hn, ?_, ?_, .inr ⟨hpos, hd, hd ▸ hexponent⟩, .inl hs⟩
    · rw [hc, if_neg hexponent.not_ge]
    · rw [hd, magnitude_shortest .even hfinite]
  · obtain ⟨l, hn, hc, hd, hs⟩ :=
      exists_literal_scientific x.isNegative (shortest .even x.magnitude)
    refine ⟨l, hn, hc, ?_, .inr ⟨hpos, hd, hd ▸ hexponent⟩, .inr (hd ▸ hs)⟩
    rw [hd, magnitude_shortest .even hfinite]

end Binary64

end BenchSweep.Number
