import BenchSweep.Number.Binary64

/-!
# Decimals

A decimal is a coefficient and a power of ten. Its binary64 magnitude is the correctly rounded one:
the exact quotient is formed and rounded once.

## Main definitions

* `Decimal`: a coefficient times a power of ten.
* `Decimal.magnitude`: the nearest binary64 magnitude.
-/

namespace BenchSweep.Number

/-- The value `coefficient * 10 ^ exponent`. -/
structure Decimal where
  coefficient : Nat
  exponent : Int
  deriving DecidableEq, Repr

namespace Decimal

/-- From this power of ten on, and from its reciprocal down, no value is finite and not zero. -/
def exponentLimit : Nat :=
  400

/-- The number of digits of the coefficient. -/
def length (d : Decimal) : Nat :=
  (Nat.toDigits 10 d.coefficient).length

/-- The binary64 magnitude nearest to a decimal. Exponents that leave no doubt about infinity or
zero are answered without forming the power of ten. -/
def magnitude (d : Decimal) : Nat :=
  if d.coefficient = 0 then 0
  else
    match d.exponent with
    | .ofNat e =>
      if exponentLimit < e then Binary64.infinity
      else Binary64.nearest (d.coefficient * tenTo e) 1
    | .negSucc e =>
      if d.length + exponentLimit < e + 1 then 0
      else Binary64.nearest d.coefficient (tenTo (e + 1))

/-- A decimal with the zeros at the end of its coefficient moved into the exponent. -/
def stripZeros (coefficient : Nat) (exponent : Int) : Decimal :=
  if coefficient ≠ 0 ∧ coefficient % 10 = 0 then stripZeros (coefficient / 10) (exponent + 1)
  else ⟨coefficient, exponent⟩
termination_by coefficient

end Decimal

end BenchSweep.Number
