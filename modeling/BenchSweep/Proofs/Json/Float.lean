import BenchSweep.Proofs.Json.Reader
import BenchSweep.Proofs.Json.ScaleError
import BenchSweep.Proofs.Number.Notation

/-!
# Floats that are written and read back

A literal of few digits keeps all of them when it is read, and its number is rounded once if it has
few places. So a number that is the nearest to a decimal from zero to one, of at most fifteen digits
and twenty-two places, is read back from what is written for it, with its sign.

## Why there is a bound on digits and places

A decimal of fifteen digits is below `2 ^ 53` and is not rounded, and a power of ten up to the
twenty-second is not rounded either. The quotient of the two is, once, and so it is the number that
is nearest to the decimal. With more digits or places one of the two would be rounded before the
division, and the result may be a neighbour.

The bound is on the decimal that the number comes from, and not on what is written for it. The
shortest decimal of the number has no more digits and places than this one (`shortest_bounds`), so
the writer stays within the bound.

## Main definitions

* `IsShortRatio`: a number that is nearest to such a decimal.

## Main results

* `float?_of_lt`: a literal of few digits is read as its decimal.
* `isFloat_jsonChars`: what is written for a short ratio is read as it.
-/

namespace BenchSweep.Json

open Number (Binary64 Decimal Literal Scale decimal digitsValue shortest tenTo twoTo)
open Number.Binary64 (IsNearest infinity isNearest_nearest nearest one value)

/-! ### Literals of few digits -/

/-- Digits that fit are all kept. -/
theorem kept_of_lt {l : Literal} (h : l.decimal.coefficient < significandBound) :
    kept l = (l.decimal.coefficient, -(l.fraction.length : ℤ)) := by
  rw [Literal.decimal] at h ⊢
  dsimp only at h ⊢
  rw [Number.digitsValue_append] at h ⊢
  have hwhole : digitsValue 0 l.whole < significandBound :=
    (Number.le_digitsValue _ l.fraction).trans_lt h
  simp [kept, readDigits_of_lt l.isDigit_whole hwhole, readDigits_of_lt l.isDigit_fraction h]

/-- A fraction that is not too long is not missed. -/
theorem not_isMissed_of_length_lt {fraction : List Char} (h : fraction.length < exponentBound)
    (digits : ℕ) : ¬IsMissed digits fraction := by
  rintro ⟨hne, -, hcount⟩
  have hpos := List.length_pos_iff.2 hne
  rw [wrapCount_of_lt (by omega) (by omega)] at hcount
  omega

/-- **A literal of few digits is read as its decimal**, in two roundings. -/
theorem float?_of_lt {l : Literal} (h : l.decimal.coefficient < significandBound)
    (hlength : l.fraction.length < exponentBound)
    (hscale : ∀ s ∈ l.scale, s.size < exponentBound) :
    float? l = scale l.negative l.decimal.coefficient l.decimal.exponent := by
  rw [float?, if_neg (not_isMissed_of_length_lt hlength _), kept_of_lt h]
  dsimp only
  rw [wrapCount_of_lt (by omega) (by omega)]
  cases hs : l.scale with
  | none =>
    dsimp only [Literal.decimal]
    rw [scaled, hs, Literal.scaleValue, zero_sub]
  | some s =>
    rw [scaled, if_pos (hscale s hs), scale_clampExponent _ h]
    dsimp only [Literal.decimal]
    rw [hs, Literal.scaleValue, sub_eq_add_neg, add_comm]

/-- A literal of exact digits at a small power of ten is rounded once. -/
theorem float?_of_exact {l : Literal} (h : l.decimal.coefficient < significandBound)
    (hexact : value (nearest l.decimal.coefficient 1) = l.decimal.coefficient)
    (hlength : l.fraction.length < exponentBound) (hsmall : l.decimal.exponent.natAbs ≤ 22)
    (hscale : ∀ s ∈ l.scale, s.size < exponentBound) (hfinite : l.decimal.magnitude < infinity) :
    float? l = some l.number := by
  rw [float?_of_lt h hlength hscale, scale_of_exact l.negative hexact hsmall, if_pos hfinite]
  rfl

/-! ### Ratios of few digits -/

/-- Plus or minus the number nearest to a decimal from zero to one that has at most fifteen digits
and twenty-two places. -/
def IsShortRatio (x : Binary64) : Prop :=
  ∃ m places, m < tenTo 15 ∧ places ≤ 22 ∧ m ≤ tenTo places ∧
    x.magnitude = nearest m (tenTo places)

theorem IsShortRatio.magnitude_le {x : Binary64} (h : IsShortRatio x) : x.magnitude ≤ one := by
  obtain ⟨m, places, -, -, hm, hx⟩ := h
  have hone : nearest 1 1 = one := by decide +kernel
  have hquotient : (m / tenTo places : ℚ) ≤ (1 : ℕ) / (1 : ℕ) := by
    rw [Nat.cast_one, div_one, div_le_one (Nat.cast_pos.2 (Number.tenTo_pos places))]
    exact Nat.cast_le.2 hm
  rw [hx, ← hone]
  exact (isNearest_nearest m (Number.tenTo_pos places)).le_of_le (isNearest_nearest 1 one_pos)
    hquotient

theorem IsShortRatio.shortest_bounds {x : Binary64} (h : IsShortRatio x) (hpos : 0 < x.magnitude) :
    (shortest .even x.magnitude).coefficient ≤ tenTo 15 ∧
      -22 ≤ (shortest .even x.magnitude).exponent := by
  have hfinite : x.magnitude < infinity := h.magnitude_le.trans_lt (by decide)
  obtain ⟨m, places, hdigits, hplaces, -, hx⟩ := h
  have hnearest := isNearest_nearest m (Number.tenTo_pos places)
  rw [← hx] at hnearest
  have hm : 0 < m := by
    refine Nat.pos_of_ne_zero fun hzero => hpos.ne' (hnearest.unique ?_)
    rw [hzero, Nat.cast_zero, zero_div, ← Number.Binary64.value_zero]
    exact Number.Binary64.isNearest_value (Nat.zero_le _)
  exact Number.shortest_of_isNearest .even hm hdigits hplaces hfinite hnearest

/-- **What is written for a short ratio is read as it.** -/
theorem isFloat_jsonChars {x : Binary64} (h : IsShortRatio x) : IsFloat x.jsonChars x := by
  have hfinite : x.magnitude < infinity := h.magnitude_le.trans_lt (by decide)
  obtain ⟨l, hn, hc, hmagnitude, hdecimal, hs⟩ :=
    Number.Binary64.exists_literal_jsonChars h.magnitude_le
  obtain ⟨hcoefficient, hplaces, hexponent⟩ : l.decimal.coefficient ≤ tenTo 15 ∧
      -22 ≤ l.decimal.exponent ∧ l.decimal.exponent < 0 := by
    rcases hdecimal with ⟨hten, hone⟩ | ⟨hpos, hd, hneg⟩
    · exact ⟨hten.trans (by decide), by omega, by omega⟩
    · rw [hd] at hneg ⊢
      exact ⟨(h.shortest_bounds hpos).1, (h.shortest_bounds hpos).2, hneg⟩
  have hdigits : (decimal l.decimal.coefficient).length ≤ 16 :=
    (Number.length_decimal_le_iff (by decide)).2 (hcoefficient.trans_lt (by decide))
  have hbound : 31 ≤ exponentBound := by decide
  have hscale : ∀ s ∈ l.scale, s.size < exponentBound := by
    intro s hmem
    rcases hs with hs | hs <;> rw [hs] at hmem <;> cases hmem
    rw [Scale.size_ofInt, Decimal.firstExponent]
    omega
  have hlength : l.fraction.length < exponentBound := by
    have hfraction : (l.fraction.length : ℤ) =
        Literal.scaleValue l.scale - l.decimal.exponent := by
      dsimp only [Literal.decimal]
      omega
    rcases hs with hs | hs
    · rw [hs, Literal.scaleValue] at hfraction
      omega
    · rw [hs, Literal.scaleValue, Scale.value_ofInt, Decimal.firstExponent] at hfraction
      omega
  have hexact := (value_nearest_of_exact (hcoefficient.trans_lt (by decide)) (Nat.zero_le 971)).2
  rw [Number.twoTo_zero, Nat.mul_one] at hexact
  have hread := float?_of_exact (hcoefficient.trans_lt (by decide)) hexact hlength (by omega)
    hscale (hmagnitude ▸ hfinite)
  rw [Literal.number, hn, hmagnitude, Number.Binary64.ofMagnitude_magnitude] at hread
  exact ⟨l, hc.symm, hread⟩

end BenchSweep.Json
