import BenchSweep.Number.Count
import BenchSweep.Number.Decimal

/-!
# Numerals of binary64 numbers

The written form of a number: an optional sign, then either digits with an optional point and
exponent, or one of the words `inf`, `infinity` and `nan` in any case. At least one digit stands
beside the point.

## Main definitions

* `Numeral`: what a numeral says, before it is rounded.
* `Numeral.read?`: the numeral of a text.
* `readBinary64`: the number that a numeral denotes, correctly rounded.
-/

namespace BenchSweep.Number

/-- Why a text is not a number. -/
inductive NumeralError where
  | empty
  | invalid
  deriving DecidableEq, Repr

/-- The wording of a numeral error. -/
def NumeralError.message : NumeralError → String
  | .empty => "cannot parse float from empty string"
  | .invalid => "invalid float literal"

/-- The part of a numeral after its sign. -/
inductive Unsigned where
  | decimal (value : Decimal)
  | infinity
  | nan
  deriving DecidableEq, Repr

/-- A numeral: a sign and what follows it. -/
structure Numeral where
  negative : Bool
  size : Unsigned
  deriving DecidableEq, Repr

/-- The exponent that ends a numeral: nothing, or `e`, an optional sign and digits. -/
def readExponent? : List Char → Option Int
  | [] => some 0
  | e :: rest =>
    if e = 'e' ∨ e = 'E' then
      let (negative, digits) :=
        match rest with
        | '-' :: t => (true, t)
        | '+' :: t => (false, t)
        | t => (false, t)
      if digits ≠ [] ∧ digits.all isDigit then
        let n := digitsValue 0 digits
        some (if negative then -(n : Int) else n)
      else none
    else none

/-- The digits before and after the point at the front of a text, and what follows them. -/
def splitPoint (s : List Char) : List Char × List Char × List Char :=
  match s.dropWhile isDigit with
  | '.' :: t => (s.takeWhile isDigit, t.takeWhile isDigit, t.dropWhile isDigit)
  | t => (s.takeWhile isDigit, [], t)

/-- The decimal that a text of digits, point and exponent denotes. -/
def readDecimal? (s : List Char) : Option Decimal :=
  match splitPoint s with
  | (whole, fraction, rest) =>
    if whole = [] ∧ fraction = [] then none
    else
      (readExponent? rest).map fun e =>
        ⟨digitsValue 0 (whole ++ fraction), e - (fraction.length : Int)⟩

/-- The part of a numeral after its sign. -/
def readUnsigned? (s : List Char) : Option Unsigned :=
  match readDecimal? s with
  | some d => some (.decimal d)
  | none =>
    match s.map Char.toLower with
    | ['i', 'n', 'f'] => some .infinity
    | ['i', 'n', 'f', 'i', 'n', 'i', 't', 'y'] => some .infinity
    | ['n', 'a', 'n'] => some .nan
    | _ => none

/-- The numeral of a text. -/
def Numeral.read? : List Char → Option Numeral
  | '-' :: rest => (readUnsigned? rest).map (⟨true, ·⟩)
  | '+' :: rest => (readUnsigned? rest).map (⟨false, ·⟩)
  | s => (readUnsigned? s).map (⟨false, ·⟩)

/-- The magnitude that the part after the sign denotes. -/
def Unsigned.magnitude : Unsigned → Nat
  | .decimal d => d.magnitude
  | .infinity => Binary64.infinity
  | .nan => Binary64.infinity + twoTo 51

/-- The number that a numeral denotes. -/
def Numeral.value (n : Numeral) : Binary64 :=
  .ofMagnitude n.negative n.size.magnitude

/-- The number that a text denotes. -/
def readBinary64 (s : List Char) : Except NumeralError Binary64 :=
  if s = [] then .error .empty
  else
    match Numeral.read? s with
    | some n => .ok n.value
    | none => .error .invalid

end BenchSweep.Number
