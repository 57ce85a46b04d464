import BenchSweep.Text.Utf8

/-!
# Bytes as characters

Commands work on bytes, most of which are characters to them. Here a byte is kept as the character
of the same number, so that texts can be taken apart by their characters.

## Main definitions

* `Raw`: a byte string as characters.
* `Raw.ofString`, `Raw.toString`, `Raw.ofBytes`, `Raw.toBytes`: the ways from and to other texts.
-/

namespace BenchSweep.Host

open Text (Bytes)

/-- A byte string, each byte as the character of its number. -/
abbrev Raw := List Char

namespace Raw

/-- The characters of bytes. -/
def ofBytes (b : Bytes) : Raw :=
  b.map fun x => Char.ofNat x.toNat

/-- The bytes of characters. -/
def toBytes (r : Raw) : Bytes :=
  r.map fun c => UInt8.ofNat c.toNat

/-- The bytes of a text. -/
def ofString (s : String) : Raw :=
  ofBytes (Text.bytesOf s)

/-- The text of bytes, with malformed ones replaced. -/
def toText (r : Raw) : String :=
  String.ofList (Text.decodeLossy (toBytes r))

/-- The numeral of a number. -/
def ofNat (n : Nat) : Raw :=
  Nat.toDigits 10 n

/-- The numeral of an integer. -/
def ofInt (n : Int) : Raw :=
  if n < 0 then '-' :: ofNat n.natAbs else ofNat n.natAbs

/-- Lines with a character after each that ends it. -/
def ofLines (lines : List Raw) (terminator : Char := '\n') : Raw :=
  lines.flatMap fun line => line ++ [terminator]

/-- The lines of a text, without the characters that end them, and whether the last one has none. -/
def splitLines (r : Raw) (terminator : Char := '\n') : List Raw × Bool :=
  let (current, lines) := r.foldl
    (fun (current, lines) c =>
      if c = terminator then ([], current.reverse :: lines) else (c :: current, lines))
    (([], []) : Raw × List Raw)
  if current = [] then (lines.reverse, false) else ((current.reverse :: lines).reverse, true)

/-- The order of texts by their bytes. -/
def isLe : Raw → Raw → Bool
  | [], _ => true
  | _ :: _, [] => false
  | a :: r, b :: s => a < b || (a = b && isLe r s)

/-- A blank between words. -/
def isBlank (c : Char) : Bool :=
  c = ' ' || c = '\t' || c = '\n' || c = '\r' || c = '\x0b' || c = '\x0c'

/-- The value of a numeral with an optional sign. -/
def toInt? (r : Raw) : Option Int :=
  let digits (r : Raw) : Option Nat :=
    if r ≠ [] ∧ r.all Char.isDigit then
      some (r.foldl (fun n c => n * 10 + (c.toNat - '0'.toNat)) 0)
    else none
  match r with
  | '-' :: rest => (digits rest).map fun n => -(n : Int)
  | '+' :: rest => (digits rest).map fun n => (n : Int)
  | rest => (digits rest).map fun n => (n : Int)

end Raw

end BenchSweep.Host
