import BenchSweep.Text.Quoted
import BenchSweep.Text.Utf8
import BenchSweep.Number.Notation

/-!
# Faults of JSON texts

What can be wrong with a JSON text, and where. A reader that stops says how many bytes are still
unread at the place of the fault; only the text as a whole turns this into a line and a column.

## Main definitions

* `Reason`: what is wrong.
* `Stop`: a reason and the number of unread bytes.
* `Fault`: a reason with line and column, as it is reported.
* `Fault.message`: the wording of a fault.
-/

namespace BenchSweep.Json

open Text (Bytes byteLength encode quote)
open Number (Binary64 natText)

/-- A value in messages about values of the wrong type. -/
inductive Found where
  | null
  | bool (value : Bool)
  | natural (value : Nat)
  | negative (value : Nat)
  | float (value : Binary64)
  | text (value : String)
  | list
  | object
  deriving DecidableEq, Repr

/-- The wording for a found value. A negative whole number is given by its absolute value. -/
def Found.describe : Found → String
  | .null => "null"
  | .bool value => "boolean `" ++ (if value then "true" else "false") ++ "`"
  | .natural value => "integer `" ++ natText value ++ "`"
  | .negative value => "integer `-" ++ natText value ++ "`"
  | .float value => "floating point `" ++ value.jsonText ++ "`"
  | .text value => "string " ++ quote value
  | .list => "sequence"
  | .object => "map"

/-- What is wrong with a text. -/
inductive Reason where
  | endInList
  | endInObject
  | endInString
  | endInValue
  | noColon
  | noCommaInList
  | noCommaInObject
  | noWord
  | noValue
  | escape
  | number
  | range
  | control
  | key
  | surrogate
  | surrogatePair
  | trailingComma
  | trailing
  | wrongType (found : Found) (expected : String)
  | wrongValue (found : Found) (expected : String)
  | duplicate (field : String)
  deriving DecidableEq, Repr

/-- The wording of a reason. -/
def Reason.message : Reason → String
  | .endInList => "EOF while parsing a list"
  | .endInObject => "EOF while parsing an object"
  | .endInString => "EOF while parsing a string"
  | .endInValue => "EOF while parsing a value"
  | .noColon => "expected `:`"
  | .noCommaInList => "expected `,` or `]`"
  | .noCommaInObject => "expected `,` or `\x7d`"
  | .noWord => "expected ident"
  | .noValue => "expected value"
  | .escape => "invalid escape"
  | .number => "invalid number"
  | .range => "number out of range"
  | .control => "control character (\\u0000-\\u001F) found while parsing a string"
  | .key => "key must be a string"
  | .surrogate => "lone leading surrogate in hex escape"
  | .surrogatePair => "unexpected end of hex escape"
  | .trailingComma => "trailing comma"
  | .trailing => "trailing characters"
  | .wrongType found expected => "invalid type: " ++ found.describe ++ ", expected " ++ expected
  | .wrongValue found expected => "invalid value: " ++ found.describe ++ ", expected " ++ expected
  | .duplicate field => "duplicate field `" ++ field ++ "`"

/-! ### Places -/

/-- A reason, and how many bytes of the text are unread at its place. -/
structure Stop where
  reason : Reason
  unread : Nat
  deriving DecidableEq, Repr

/-- The result of reading from the front of a text: a value and the characters after it. -/
abbrev Result (α : Type) := Except Stop (α × List Char)

/-- Stops in front of the unread characters. -/
def stopBefore {α : Type} (reason : Reason) (rest : List Char) : Except Stop α :=
  .error ⟨reason, byteLength rest⟩

/-- Stops after the first unread byte, or at the end of the text. -/
def stopAfter {α : Type} (reason : Reason) (rest : List Char) : Except Stop α :=
  .error ⟨reason, byteLength rest - 1⟩

/-- A reason with the line, counted from one, and the number of bytes before it on that line. -/
structure Fault where
  reason : Reason
  line : Nat
  column : Nat
  deriving DecidableEq, Repr

/-- The wording of a fault. -/
def Fault.message (f : Fault) : String :=
  f.reason.message ++ " at line " ++ natText f.line ++ " column " ++ natText f.column

/-- The line of the end of a byte string, counted from one. -/
def lineAfter (read : Bytes) : Nat :=
  read.count 10 + 1

/-- The number of bytes after the last line feed. -/
def columnAfter (read : Bytes) : Nat :=
  (read.reverse.takeWhile (· ≠ 10)).length

/-- The fault at which the reading of a text stopped. -/
def Stop.inText (stop : Stop) (text : List Char) : Fault :=
  let read := (encode text).take (byteLength text - stop.unread)
  ⟨stop.reason, lineAfter read, columnAfter read⟩

end BenchSweep.Json
