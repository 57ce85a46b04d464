import BenchSweep.Number.Count
import BenchSweep.Number.Shortest

/-!
# Written forms of binary64 numbers

Three texts of a number: the plain one, without exponent; the text of a ratio, which keeps a digit
after the point; and the text in a configuration, which turns to an exponent for very large and very
small values. All three read back to the number.

## Main definitions

* `plainText`: positional, with the fewest digits; a whole number has no point.
* `ratioText`: as `plainText`, but a whole number is written exactly, with `.0` after it.
* `jsonText`: positional where the decimal exponent is from `-5` to `15`, else with an exponent.
-/

namespace BenchSweep.Number

/-- The digits of a decimal in positional notation; a point only where a fraction follows. -/
def positional (d : Decimal) : List Char :=
  let digits := decimal d.coefficient
  match d.exponent with
  | .ofNat e => digits ++ List.replicate e '0'
  | .negSucc e =>
    let places := e + 1
    if places < digits.length then
      digits.take (digits.length - places) ++ '.' :: digits.drop (digits.length - places)
    else
      '0' :: '.' :: (List.replicate (places - digits.length) '0' ++ digits)

namespace Binary64

/-- The sign in front of a text. -/
def withSign (x : Binary64) (text : List Char) : List Char :=
  if x.isNegative then '-' :: text else text

/-- Whether a finite number is whole. -/
def isWhole (x : Binary64) : Bool :=
  units x.magnitude % unitsPerOne = 0

/-- The number without exponent, with the fewest digits that read back; of two equally near decimals
the larger. -/
def plainChars (x : Binary64) : List Char :=
  if x.isNaN then ['N', 'a', 'N']
  else
    x.withSign <|
      if !x.isFinite then ['i', 'n', 'f']
      else if x.magnitude = 0 then ['0']
      else positional (shortest .up x.magnitude)

/-- A ratio: a whole number in full with `.0` after it, any other as in `plainChars`. -/
def ratioChars (x : Binary64) : List Char :=
  if x.isFinite && x.isWhole then
    x.withSign (decimal (units x.magnitude / unitsPerOne) ++ ['.', '0'])
  else x.plainChars

/-- The text of a number without exponent. -/
def plainText (x : Binary64) : String :=
  String.ofList x.plainChars

/-- The text of a ratio. -/
def ratioText (x : Binary64) : String :=
  String.ofList x.ratioChars

/-! ### Numbers in a configuration -/

/-- The decimal exponents that are written positionally in a configuration. -/
def isPositional (exponent : Int) : Bool :=
  -5 ≤ exponent && exponent ≤ 15

/-- A decimal in scientific notation: one digit, the others after a point, and a signed exponent. -/
def scientific (d : Decimal) : List Char :=
  let digits := decimal d.coefficient
  let exponent := d.exponent + (digits.length - 1 : Nat)
  let mantissa :=
    match digits with
    | [] => []
    | [c] => [c]
    | c :: rest => c :: '.' :: rest
  let sign := if exponent < 0 then '-' else '+'
  mantissa ++ 'e' :: sign :: decimal exponent.natAbs

/-- A finite number with the fewest digits that read back, the even one of two equally near. A
number that is written positionally has a point. -/
def jsonChars (x : Binary64) : List Char :=
  x.withSign <|
    if x.magnitude = 0 then ['0', '.', '0']
    else
      let d := shortest .even x.magnitude
      let exponent := d.exponent + ((decimal d.coefficient).length - 1 : Nat)
      if isPositional exponent then
        let text := positional d
        if 0 ≤ d.exponent then text ++ ['.', '0'] else text
      else scientific d

/-- The text of a number in a configuration; `null` where there is no number. -/
def jsonText (x : Binary64) : String :=
  if x.isFinite then String.ofList x.jsonChars else "null"

end Binary64

end BenchSweep.Number
