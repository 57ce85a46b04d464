import BenchSweep.Number.Power

/-!
# Counts

Unsigned numerals below a bound: their text and its reading. A reader looks at the characters from
the left and stops at the first one that is no digit or that takes the value past the bound.

## Main definitions

* `decimal`: the digits of a number.
* `readBelow`: the number that a numeral denotes, if it is below a bound.
* `CountError`: what is wrong with a numeral.
-/

namespace BenchSweep.Number

/-- Why a text is not a count. -/
inductive CountError where
  | empty
  | invalidDigit
  | tooLarge
  deriving DecidableEq, Repr

/-- The wording of a count error. -/
def CountError.message : CountError → String
  | .empty => "cannot parse integer from empty string"
  | .invalidDigit => "invalid digit found in string"
  | .tooLarge => "number too large to fit in target type"

/-- The decimal digits of a number, without leading zeros. -/
def decimal (n : Nat) : List Char :=
  Nat.toDigits 10 n

/-- The value of a decimal digit. -/
def digit? (c : Char) : Option Nat :=
  if '0' ≤ c ∧ c ≤ '9' then some (c.toNat - '0'.toNat) else none

/-- A decimal digit. -/
def isDigit (c : Char) : Bool :=
  (digit? c).isSome

/-- The value of a run of digits after a prefix of value `acc`; other characters add nothing. -/
def digitsValue (acc : Nat) (s : List Char) : Nat :=
  s.foldl (fun n c => n * 10 + (digit? c).getD 0) acc

/-- Reads digits after a prefix of value `acc`, keeping the value below `bound`. -/
def readDigitsBelow (bound acc : Nat) : List Char → Except CountError Nat
  | [] => .ok acc
  | c :: rest =>
    match digit? c with
    | none => .error .invalidDigit
    | some d =>
      if acc * 10 + d < bound then readDigitsBelow bound (acc * 10 + d) rest
      else .error .tooLarge

/-- Reads a numeral below `bound`: digits, after an optional plus sign. -/
def readBelow (bound : Nat) : List Char → Except CountError Nat
  | [] => .error .empty
  | ['+'] => .error .invalidDigit
  | '+' :: rest => readDigitsBelow bound 0 rest
  | s => readDigitsBelow bound 0 s

/-- Reads a count of 64 bits. -/
def readCount (s : List Char) : Except CountError UInt64 :=
  (readBelow (twoTo 64) s).map UInt64.ofNat

/-- Reads a port number. -/
def readPort (s : List Char) : Except CountError UInt16 :=
  (readBelow (twoTo 16) s).map UInt16.ofNat

/-- The text of a number. -/
def natText (n : Nat) : String :=
  String.ofList (decimal n)

/-- The text of a count. -/
def countText (n : UInt64) : String :=
  natText n.toNat

end BenchSweep.Number
