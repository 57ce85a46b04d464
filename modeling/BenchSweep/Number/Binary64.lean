import BenchSweep.Number.Power

/-!
# Binary64 numbers

Floating-point numbers as their sixty-four bits, with exact arithmetic on natural numbers.

The bits without the sign are the *magnitude*, a number below `2 ^ 63`. Magnitudes are ordered as
the values they stand for, so a neighbour is the magnitude plus or minus one. The value of a finite
magnitude is a whole number of units of `2 ^ (-1074)`, and every operation is defined as the exact
result in units, rounded once to the nearest magnitude, ties to even.

## Main definitions

* `Binary64`: the type.
* `Binary64.units`: the value of a magnitude in units of `2 ^ (-1074)`.
* `Binary64.nearest`: the magnitude nearest to a quotient.
-/

namespace BenchSweep.Number

/-- A quotient rounded to the nearest natural number, ties to even. -/
def roundHalfEven (num den : Nat) : Nat :=
  let q := num / den
  let r := num % den
  if 2 * r < den then q
  else if den < 2 * r then q + 1
  else if q % 2 = 0 then q else q + 1

/-- A binary64 number. -/
structure Binary64 where
  /-- The sign bit, eleven exponent bits and fifty-two fraction bits. -/
  bits : UInt64
  deriving DecidableEq, Repr

namespace Binary64

/-- The bits without the sign. -/
def magnitude (x : Binary64) : Nat :=
  x.bits.toNat % twoTo 63

/-- Whether the sign bit is set. -/
def isNegative (x : Binary64) : Bool :=
  twoTo 63 ≤ x.bits.toNat

/-- The magnitude of infinity. Larger magnitudes are those of no number. -/
def infinity : Nat :=
  2047 * twoTo 52

/-- The magnitude of one. -/
def one : Nat :=
  1023 * twoTo 52

/-- The number with a given sign and magnitude. -/
def ofMagnitude (negative : Bool) (k : Nat) : Binary64 :=
  ⟨UInt64.ofNat (k + if negative then twoTo 63 else 0)⟩

/-- Whether the bits stand for no number. -/
def isNaN (x : Binary64) : Bool :=
  infinity < x.magnitude

/-- Whether the bits stand for a real number. -/
def isFinite (x : Binary64) : Bool :=
  x.magnitude < infinity

/-- The value of a finite magnitude in units of `2 ^ (-1074)`. Below `2 ^ 52` the exponent bits are
zero and the fraction counts units; above, the fraction continues a leading one bit, and each step
of the exponent doubles the step between neighbours. -/
def units (k : Nat) : Nat :=
  if k < twoTo 52 then k else (twoTo 52 + k % twoTo 52) * twoTo (k / twoTo 52 - 1)

/-- How many units make one. -/
def unitsPerOne : Nat :=
  twoTo 1074

/-- The magnitude nearest to `num / den`, ties to even, and `infinity` from halfway past the largest
finite value on. With `j` chosen so that the quotient is below `2 ^ 53` steps of `2 ^ j` units, the
rounded number of steps added to `j * 2 ^ 52` is the magnitude: a carry into the next power of two
lands on the right neighbour by itself. -/
def nearest (num den : Nat) : Nat :=
  let scaled := num * unitsPerOne
  let j := (scaled / den).log2 - 52
  min infinity (j * twoTo 52 + roundHalfEven scaled (den * twoTo j))

/-- The magnitude of the product of two finite magnitudes. -/
def mulMagnitude (a b : Nat) : Nat :=
  nearest (units a * units b) (unitsPerOne * unitsPerOne)

/-- The magnitude of the quotient of two finite magnitudes, the second not zero. -/
def divMagnitude (a b : Nat) : Nat :=
  nearest (units a) (units b)

/-- Whether a number lies in the closed interval from zero to one. Zero of either sign does. -/
def inUnitInterval (x : Binary64) : Bool :=
  x.magnitude = 0 || (!x.isNegative && x.magnitude ≤ one)

end Binary64

end BenchSweep.Number
