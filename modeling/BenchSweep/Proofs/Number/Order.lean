import BenchSweep.Proofs.Number.Error
import Mathlib.Order.WithBot

/-!
# The order of binary64 numbers

Binary64 numbers are compared by what they stand for, a rational number or one of the infinities, so
that the zeros of both signs are the same to a comparison. Bits that stand for no number are neither
below nor above anything.

## Why there are infinities on both ends

A comparison is defined for every two numbers that are numbers, and infinity is one. With `WithBot`
and `WithTop` around the rational numbers, the order of the library is the order that is meant, and
the zeros of both signs are equal because they stand for one rational number. Bits that are no
number have no place in it; `IsLe` asks that neither side is of this kind.

## Main definitions

* `Binary64.extended`: what the bits stand for.
* `Binary64.IsLe`: the comparison.

## Main results

* `Binary64.inUnitInterval_iff`: the test on the bits is the comparison with zero and one.
-/

namespace BenchSweep.Number.Binary64

/-- The rational number that finite bits stand for. -/
def toRat (x : Binary64) : ℚ :=
  if x.isNegative then -value x.magnitude else value x.magnitude

/-- What bits stand for, with an infinity at either end. -/
def extended (x : Binary64) : WithBot (WithTop ℚ) :=
  if x.isFinite then ((x.toRat : WithTop ℚ) : WithBot (WithTop ℚ))
  else if x.isNegative then ⊥ else ((⊤ : WithTop ℚ) : WithBot (WithTop ℚ))

/-- The comparison of two numbers. It fails if one of them is no number. -/
def IsLe (x y : Binary64) : Prop :=
  x.isNaN = false ∧ y.isNaN = false ∧ x.extended ≤ y.extended

variable {x : Binary64}

theorem isNaN_of_isFinite (h : x.isFinite = true) : x.isNaN = false := by
  rw [isFinite, decide_eq_true_eq] at h
  rw [isNaN, decide_eq_false_iff_not]
  omega

/-- A number between two finite ones is finite. -/
theorem isLe_and_isLe_iff {a b : Binary64} (ha : a.isFinite = true) (hb : b.isFinite = true) :
    a.IsLe x ∧ x.IsLe b ↔ x.isFinite = true ∧ a.toRat ≤ x.toRat ∧ x.toRat ≤ b.toRat := by
  rw [IsLe, IsLe, extended, extended, extended, if_pos ha, if_pos hb]
  cases hx : x.isFinite with
  | true =>
    simp only [isNaN_of_isFinite ha, isNaN_of_isFinite hb, isNaN_of_isFinite hx, if_true, true_and,
      WithBot.coe_le_coe, WithTop.coe_le_coe]
  | false => cases x.isNegative <;> simp

/-- **The test on the bits is the comparison with zero and one.** -/
theorem inUnitInterval_iff :
    x.inUnitInterval = true ↔ (ofMagnitude false 0).IsLe x ∧ x.IsLe (ofMagnitude false one) := by
  have hzero : (ofMagnitude false 0).toRat = 0 := by
    rw [toRat, if_neg (by decide), show (ofMagnitude false 0).magnitude = 0 by decide, value_zero]
  have hone : (ofMagnitude false one).toRat = 1 := by
    rw [toRat, if_neg (by decide), show (ofMagnitude false one).magnitude = one by decide,
      value_one]
  rw [isLe_and_isLe_iff (by decide) (by decide), hzero, hone, inUnitInterval, Bool.or_eq_true,
    Bool.and_eq_true, decide_eq_true_eq, decide_eq_true_eq, toRat, isFinite, decide_eq_true_eq,
    Bool.not_eq_true']
  have hle : value x.magnitude ≤ 1 ↔ x.magnitude ≤ one := value_one ▸ strictMono_value.le_iff_le
  have hfinite : one < infinity := by decide
  cases x.isNegative with
  | false =>
    simp only [Bool.false_eq_true, if_false, value_nonneg, hle, true_and]
    omega
  | true =>
    have hneg : 0 ≤ -value x.magnitude ↔ x.magnitude = 0 := by
      rw [Left.nonneg_neg_iff, ← value_zero, strictMono_value.le_iff_le, Nat.le_zero]
    have hnegle : -value x.magnitude ≤ 1 := by linarith [value_nonneg x.magnitude]
    simp only [if_true, hneg, hnegle, Bool.true_eq_false, false_and, or_false, and_true]
    refine ⟨fun h => ⟨?_, h⟩, And.right⟩
    rw [h]
    decide

end BenchSweep.Number.Binary64
