import BenchSweep.Number.Decimal

/-!
# The shortest decimal of a number

Among the decimals that read back to a magnitude, the one with the fewest digits, and of those the
nearest. For each number of digits the two neighbours of the exact value on that decimal grid are
tried: if any point of the grid reads back, one of the neighbours does. Where both neighbours are
equally near, the writer of the text decides.

## Main definitions

* `Tie`: which of two equally near decimals is taken.
* `shortest`: the shortest decimal of a magnitude.
-/

namespace BenchSweep.Number

/-- Which of two equally near decimals is taken. -/
inductive Tie where
  | up
  | even
  deriving DecidableEq, Repr

/-- The greatest exponent `e` with `10 ^ e ≤ num / den`, for a quotient above zero. -/
def leadingExponent (num den : Nat) : Int :=
  if den ≤ num then (Nat.toDigits 10 (num / den)).length - 1
  else -((Nat.toDigits 10 ((den - 1) / num)).length : Int)

/-- The quotient `num / den` in steps of `10 ^ exponent`, as a new quotient. -/
def inSteps (num den : Nat) (exponent : Int) : Nat × Nat :=
  (num * tenTo (-exponent).toNat, den * tenTo exponent.toNat)

/-- The point of the grid of multiples of `10 ^ exponent` that reads back to the magnitude `k`,
whose value is `num / den`; the nearer one, if both neighbours of the value do. -/
def onGrid (tie : Tie) (k num den : Nat) (exponent : Int) : Option Decimal :=
  let (n, d) := inSteps num den exponent
  let below : Decimal := ⟨n / d, exponent⟩
  let above : Decimal := ⟨n / d + 1, exponent⟩
  match decide (below.magnitude = k), decide (above.magnitude = k) with
  | false, false => none
  | true, false => some below
  | false, true => some above
  | true, true =>
    if 2 * (n % d) < d then some below
    else if d < 2 * (n % d) then some above
    else
      match tie with
      | .up => some above
      | .even => some (if n / d % 2 = 0 then below else above)

/-- The exact value of a magnitude as a decimal. -/
def exactDecimal (k : Nat) : Decimal :=
  ⟨Binary64.units k * Nat.pow 5 1074, -1074⟩

/-- The most digits that a search tries; so many always suffice. -/
def mostDigits : Nat :=
  17

/-- The shortest decimal that reads back to a finite magnitude above zero. -/
def shortest (tie : Tie) (k : Nat) : Decimal :=
  let num := Binary64.units k
  let den := Binary64.unitsPerOne
  let lead := leadingExponent num den
  let found := (List.range mostDigits).findSome? fun (n : Nat) => onGrid tie k num den (lead - n)
  let d := found.getD (exactDecimal k)
  Decimal.stripZeros d.coefficient d.exponent

end BenchSweep.Number
