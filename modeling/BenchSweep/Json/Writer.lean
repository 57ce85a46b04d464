import BenchSweep.Number.Notation
import BenchSweep.Text.Quoted

/-!
# Written JSON

JSON texts without blanks.

## Main definitions

* `writeString`, `writeList`, `writeObject`, `writeOption`: the texts of values.
-/

namespace BenchSweep.Json

/-- How a character is written in a string: control characters, quotes and backslashes are
escaped. -/
def writeChar (c : Char) : List Char :=
  match c with
  | '"' => ['\\', '"']
  | '\\' => ['\\', '\\']
  | '\x08' => ['\\', 'b']
  | '\x0c' => ['\\', 'f']
  | '\n' => ['\\', 'n']
  | '\r' => ['\\', 'r']
  | '\t' => ['\\', 't']
  | c =>
    if c.toNat < 0x20 then
      ['\\', 'u', '0', '0', Nat.digitChar (c.toNat / 16), Nat.digitChar (c.toNat % 16)]
    else [c]

/-- A string in quotes. -/
def writeString (s : String) : List Char :=
  '"' :: (s.toList.flatMap writeChar ++ ['"'])

/-- Texts separated by commas. -/
def separated (items : List (List Char)) : List Char :=
  List.intercalate [','] items

/-- A list. -/
def writeList {α : Type} (write : α → List Char) (values : List α) : List Char :=
  '[' :: (separated (values.map write) ++ [']'])

/-- A value, or `null` for its absence. -/
def writeOption {α : Type} (write : α → List Char) : Option α → List Char
  | none => ['n', 'u', 'l', 'l']
  | some value => write value

/-- A member of an object. -/
def writeMember (name : String) (value : List Char) : List Char :=
  writeString name ++ ':' :: value

/-- An object. -/
def writeObject (members : List (List Char)) : List Char :=
  '\x7b' :: (separated members ++ ['\x7d'])

end BenchSweep.Json
