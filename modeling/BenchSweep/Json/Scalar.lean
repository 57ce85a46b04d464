import BenchSweep.Json.Fault
import BenchSweep.Number.Count
import BenchSweep.Number.Decimal

/-!
# Scalars of JSON texts

Blanks, words, strings and numbers, read from the front of a text.

A number keeps at most the digits that fit into sixty-four bits. A whole number that fits is exact.
Any other number is computed in two roundings, first of the digits that were kept, then of their
product with, or quotient by, a power of ten. The digits of a number are counted in thirty-two bits:
past their bound a count starts over, and the power of ten stays where it is.

## Main definitions

* `skipBlanks`, `readWord`: blanks and the rest of a word.
* `readString`: the rest of a string after its opening quote.
* `Scalar`, `readNumber`: a number.
* `wrapCount`, `clampExponent`: counts of digits and powers of ten in thirty-two bits.
* `scale`: the number that digits and an exponent denote.
-/

namespace BenchSweep.Json

open Text (byteLength)
open Number (Binary64 digit? twoTo)

/-- A blank between tokens. -/
def isBlank (c : Char) : Bool :=
  c = ' ' || c = '\n' || c = '\t' || c = '\r'

/-- The text from its first character that is no blank. -/
def skipBlanks (s : List Char) : List Char :=
  s.dropWhile isBlank

/-- Reads the characters of a word. -/
def readWord : List Char → List Char → Except Stop (List Char)
  | [], rest => .ok rest
  | _ :: _, [] => stopBefore .endInValue []
  | w :: word, c :: rest => if c = w then readWord word rest else stopAfter .noWord (c :: rest)

/-! ### Strings -/

/-- The value of a hexadecimal digit. -/
def hexDigit? (c : Char) : Option Nat :=
  if '0' ≤ c ∧ c ≤ '9' then some (c.toNat - '0'.toNat)
  else if 'a' ≤ c ∧ c ≤ 'f' then some (c.toNat - 'a'.toNat + 10)
  else if 'A' ≤ c ∧ c ≤ 'F' then some (c.toNat - 'A'.toNat + 10)
  else none

/-- The value of four hexadecimal digits. -/
def hexValue? (a b c d : Char) : Option Nat := do
  let a ← hexDigit? a
  let b ← hexDigit? b
  let c ← hexDigit? c
  let d ← hexDigit? d
  return ((a * 16 + b) * 16 + c) * 16 + d

/-- The value of the four hexadecimal digits in front of a text. Four bytes are taken, whatever they
are. -/
def readHex (s : List Char) : Result Nat :=
  match s with
  | a :: b :: c :: d :: rest =>
    match hexValue? a b c d with
    | some n => .ok (n, rest)
    | none => .error ⟨.escape, byteLength s - 4⟩
  | _ => if byteLength s < 4 then stopBefore .endInString [] else .error ⟨.escape, byteLength s - 4⟩

/-- The first half of a surrogate pair. -/
def isLeading (n : Nat) : Bool :=
  0xD800 ≤ n && n ≤ 0xDBFF

/-- The second half of a surrogate pair. -/
def isTrailing (n : Nat) : Bool :=
  0xDC00 ≤ n && n ≤ 0xDFFF

/-- The code point of a surrogate pair. -/
def pairValue (leading trailing : Nat) : Nat :=
  (leading - 0xD800) * 0x400 + (trailing - 0xDC00) + 0x10000

/-- Takes the character `c` from the front of the second escape of a surrogate pair. -/
def expectInPair (c : Char) : List Char → Except Stop (List Char)
  | [] => stopBefore .endInString []
  | d :: rest => if d = c then .ok rest else stopAfter .surrogatePair (d :: rest)

/-- The character of a numeric escape, after its `u`. Code points beyond the basic plane are written
as a pair of escapes. -/
def readUnicode (s : List Char) : Except Stop (Char × List Char) := do
  let (n, rest) ← readHex s
  if isTrailing n then stopBefore .surrogate rest
  else if isLeading n then
    let rest ← expectInPair '\\' rest
    let rest ← expectInPair 'u' rest
    let (m, rest) ← readHex rest
    if isTrailing m then .ok (Char.ofNat (pairValue n m), rest) else stopBefore .surrogate rest
  else .ok (Char.ofNat n, rest)

/-- The character that a letter after a backslash stands for. -/
def shortEscape? : Char → Option Char
  | '"' => some '"'
  | '\\' => some '\\'
  | '/' => some '/'
  | 'b' => some '\x08'
  | 'f' => some '\x0c'
  | 'n' => some '\n'
  | 'r' => some '\r'
  | 't' => some '\t'
  | _ => none

/-- The character of an escape, after its backslash. -/
def readEscape : List Char → Result Char
  | [] => stopBefore .endInString []
  | 'u' :: rest => readUnicode rest
  | c :: rest =>
    match shortEscape? c with
    | some d => .ok (d, rest)
    | none => stopAfter .escape (c :: rest)

/-- A character that may not stand in a string. -/
def isControl (c : Char) : Bool :=
  c.toNat < 0x20

/-- Reads the rest of a string whose opening quote and first characters have been read; those are
kept in reverse. Every step takes a character, and `fuel` is at least the length of the text. -/
def readStringFrom (fuel : Nat) (done : List Char) (s : List Char) : Result String :=
  match fuel, s with
  | 0, _ | _, [] => stopBefore .endInString []
  | fuel + 1, c :: rest =>
    if c = '"' then .ok (String.ofList done.reverse, rest)
    else if c = '\\' then
      match readEscape rest with
      | .error stop => .error stop
      | .ok (d, rest) => readStringFrom fuel (d :: done) rest
    else if isControl c then stopBefore .control rest
    else readStringFrom fuel (c :: done) rest

/-- Reads the rest of a string after its opening quote. -/
def readString (s : List Char) : Result String :=
  readStringFrom s.length [] s

/-! ### Numbers -/

/-- A number as it was read. A negative whole number is given by its absolute value. -/
inductive Scalar where
  | natural (value : Nat)
  | negative (value : Nat)
  | float (value : Binary64)
  deriving DecidableEq, Repr

/-- A number in messages. -/
def Scalar.found : Scalar → Found
  | .natural value => .natural value
  | .negative value => .negative value
  | .float value => .float value

/-- Digits that are kept stay below this bound. -/
def significandBound : Nat :=
  twoTo 64

/-- Exponents are numbers below this bound. -/
def exponentBound : Nat :=
  twoTo 31

/-- A count of digits. It starts over at the negative bound where it would pass the other one. -/
def wrapCount (n : Int) : Int :=
  n.bmod (2 * exponentBound)

/-- A power of ten. It stays at the bound that it would pass. -/
def clampExponent (n : Int) : Int :=
  max (-exponentBound) (min n (exponentBound - 1))

/-- The largest power of ten that a number is multiplied with or divided by in one step. -/
def largestPower : Nat :=
  308

/-- The magnitude of a power of ten. -/
def powerOfTen (n : Nat) : Nat :=
  (Number.Decimal.mk 1 n).magnitude

/-- Divides a magnitude by a power of ten, in steps of at most the largest power. -/
def divideByPower (k exponent : Nat) : Nat :=
  if exponent ≤ largestPower then Binary64.divMagnitude k (powerOfTen exponent)
  else if k = 0 then 0
  else divideByPower (Binary64.divMagnitude k (powerOfTen largestPower)) (exponent - largestPower)
termination_by exponent
decreasing_by simp only [largestPower] at *; omega

/-- The number that digits and a power of ten denote, none if it is not finite. -/
def scale (negative : Bool) (digits : Nat) (exponent : Int) : Option Binary64 :=
  let k := Binary64.nearest digits 1
  let scaled :=
    match exponent with
    | .ofNat e =>
      if e ≤ largestPower then Binary64.mulMagnitude k (powerOfTen e)
      else if k = 0 then 0 else Binary64.infinity
    | .negSucc e => divideByPower k (e + 1)
  if scaled < Binary64.infinity then some (.ofMagnitude negative scaled) else none

/-- The number that digits and a power of ten denote, in front of the unread characters `rest`. -/
def readScaled (negative : Bool) (digits : Nat) (exponent : Int) (rest : List Char) :
    Result Scalar :=
  match scale negative digits exponent with
  | some value => .ok (.float value, rest)
  | none => stopBefore .range rest

/-- Reads digits after a prefix of value `acc`, as long as the value stays below `bound`. -/
def readDigits (bound acc : Nat) : List Char → Nat × List Char
  | [] => (acc, [])
  | c :: rest =>
    match digit? c with
    | some d =>
      if acc * 10 + d < bound then readDigits bound (acc * 10 + d) rest else (acc, c :: rest)
    | none => (acc, c :: rest)

/-- The digits in front of a text. -/
def digitRun (s : List Char) : List Char :=
  s.takeWhile Number.isDigit

/-- The text after the digits in front of it. -/
def afterDigits (s : List Char) : List Char :=
  s.dropWhile Number.isDigit

/-- The sign of an exponent: whether it is negative, and the text after it. -/
def exponentSign : List Char → Bool × List Char
  | '+' :: rest => (false, rest)
  | '-' :: rest => (true, rest)
  | rest => (false, rest)

/-- Reads an exponent after its `e`, for digits that are scaled by `10 ^ shift` already. An exponent
past the bound makes the number zero or takes it out of range; the fault is placed after the digit
that passes the bound. -/
def readExponent (negative : Bool) (digits : Nat) (shift : Int) (s : List Char) : Result Scalar :=
  match exponentSign s with
  | (_, []) => stopBefore .endInValue []
  | (down, c :: rest) =>
    if Number.isDigit c then
      let (e, rest') := readDigits exponentBound 0 (c :: rest)
      match digitRun rest' with
      | [] =>
        readScaled negative digits (clampExponent (shift + if down then -(e : Int) else e)) rest'
      | _ :: _ =>
        if digits ≠ 0 ∧ !down then stopAfter .range rest'
        else .ok (.float (.ofMagnitude negative 0), afterDigits rest')
    else stopAfter .number (c :: rest)

/-- Reads what follows all digits of a number: an exponent, or nothing. -/
def readScale (negative : Bool) (digits : Nat) (shift : Int) (s : List Char) : Result Scalar :=
  match s with
  | 'e' :: rest | 'E' :: rest => readExponent negative digits shift rest
  | _ => readScaled negative digits shift s

/-- Reads a fraction after its point. Digits that do not fit any more are dropped. A fraction is
missing if its digits are counted to zero. -/
def readFraction (negative : Bool) (digits : Nat) (shift : Int) (s : List Char) : Result Scalar :=
  let (digits', rest) := readDigits significandBound digits s
  let places := wrapCount (s.length - rest.length : Nat)
  if digitRun rest = [] ∧ places = 0 then
    stopAfter (if rest = [] then .endInValue else .number) rest
  else readScale negative digits' (wrapCount (shift - places)) (afterDigits rest)

/-- Reads what follows the whole part of a number, `dropped` digits of which did not fit. -/
def readTail (negative : Bool) (digits dropped : Nat) (s : List Char) : Result Scalar :=
  match s with
  | '.' :: rest => readFraction negative digits (wrapCount dropped) rest
  | _ => readScale negative digits (wrapCount dropped) s

/-- A whole number that fits. A minus sign keeps it whole if it is not zero and at least `-2 ^ 63`;
otherwise it becomes a float. -/
def wholeScalar (negative : Bool) (n : Nat) : Scalar :=
  if !negative then .natural n
  else if 0 < n ∧ n ≤ twoTo 63 then .negative n
  else .float (.ofMagnitude true (Binary64.nearest n 1))

/-- Reads a number whose whole part is `digits`, at its end. -/
def readWhole (negative : Bool) (digits : Nat) (s : List Char) : Result Scalar :=
  match s with
  | '.' :: _ | 'e' :: _ | 'E' :: _ => readTail negative digits 0 s
  | _ => .ok (wholeScalar negative digits, s)

/-- Reads a number after its sign. A leading zero stands alone. -/
def readUnsigned (negative : Bool) (s : List Char) : Result Scalar :=
  match s with
  | [] => stopBefore .endInValue []
  | c :: rest =>
    if c = '0' then
      match digitRun rest with
      | [] => readWhole negative 0 rest
      | _ :: _ => stopAfter .number rest
    else if Number.isDigit c then
      let (digits, rest) := readDigits significandBound 0 s
      match digitRun rest with
      | [] => readWhole negative digits rest
      | dropped => readTail negative digits dropped.length (afterDigits rest)
    else stopAfter .number s

/-- Reads a number, from its sign on. -/
def readNumber : List Char → Result Scalar
  | '-' :: rest => readUnsigned true rest
  | s => readUnsigned false s

end BenchSweep.Json
