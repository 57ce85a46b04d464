import BenchSweep.Text.Printable
import BenchSweep.Text.Extending

/-!
# Quoted text

Text between double quotes for messages: one line, no invisible characters, and no bare quote.

## Main definitions

* `quote`: a text in quotes.
* `quoteList`: a list of texts in brackets.
-/

namespace BenchSweep.Text

/-- The digits of a number in base sixteen. -/
def hexDigits (n : Nat) : List Char :=
  Nat.toDigits 16 n

/-- How a character is written between quotes: a short escape if it has one, itself if it is
printable and does not extend the character before it, and its number otherwise. -/
def quoteChar (c : Char) : List Char :=
  match c with
  | '\x00' => ['\\', '0']
  | '\t' => ['\\', 't']
  | '\r' => ['\\', 'r']
  | '\n' => ['\\', 'n']
  | '\\' => ['\\', '\\']
  | '"' => ['\\', '"']
  | c =>
    if isPrintable c && !isExtending c then [c]
    else '\\' :: 'u' :: '\x7b' :: (hexDigits c.toNat ++ ['\x7d'])

/-- A text in double quotes. -/
def quote (s : String) : String :=
  String.ofList ('"' :: (s.toList.flatMap quoteChar ++ ['"']))

/-- Quoted texts in brackets, separated by a comma and a space. -/
def quoteList (texts : List String) : String :=
  "[" ++ String.intercalate ", " (texts.map quote) ++ "]"

end BenchSweep.Text
