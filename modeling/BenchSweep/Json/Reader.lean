import BenchSweep.Json.Skip

/-!
# Readers of JSON values

A reader takes a value of one type from the front of a text. Where another type stands, the fault
says what was found and what was expected; it is placed after a scalar, and before a list or an
object.

A record is written as an object whose members may come in any order, or as a list of its fields in
their order. Fields that are left out keep their value from a default record, unknown members are
skipped, and a field may come only once.

## Main definitions

* `Reader`: the type of readers.
* `readCount`, `readFloat`, `readText`, `readOption`, `readListOf`: readers of values.
* `RecordField`, `readRecord`: records.
* `read`: a whole text.
-/

namespace BenchSweep.Json

open Number (Binary64 twoTo)

/-- A reader of a value from the front of a text. -/
abbrev Reader (α : Type) := List Char → Result α

/-- Reads the rest of a word, for a value of another type than the expected one. -/
def otherWord {α : Type} (word : List Char) (found : Found) (expected : String)
    (rest : List Char) : Result α :=
  match readWord word rest with
  | .error stop => .error stop
  | .ok rest => stopBefore (.wrongType found expected) rest

/-- Reads a value of another type than the expected one, which is a fault. -/
def readOther {α : Type} (expected : String) (s : List Char) : Result α :=
  match s with
  | [] => stopBefore .endInValue []
  | 'n' :: rest => otherWord ['u', 'l', 'l'] .null expected rest
  | 't' :: rest => otherWord ['r', 'u', 'e'] (.bool true) expected rest
  | 'f' :: rest => otherWord ['a', 'l', 's', 'e'] (.bool false) expected rest
  | '"' :: rest =>
    match readString rest with
    | .error stop => .error stop
    | .ok (text, rest) => stopBefore (.wrongType (.text text) expected) rest
  | '[' :: _ => stopBefore (.wrongType .list expected) s
  | '\x7b' :: _ => stopBefore (.wrongType .object expected) s
  | c :: _ =>
    if c = '-' ∨ Number.isDigit c then
      match readNumber s with
      | .error stop => .error stop
      | .ok (n, rest) => stopBefore (.wrongType n.found expected) rest
    else stopAfter .noValue s

/-! ### Scalars -/

/-- Reads a number and turns it into a value, or says what is wrong with it. -/
def readScalar {α : Type} (expected : String) (convert : Scalar → Except Reason α) : Reader α :=
  fun s =>
    match skipBlanks s with
    | c :: rest =>
      if c = '-' ∨ Number.isDigit c then
        match readNumber (c :: rest) with
        | .error stop => .error stop
        | .ok (n, rest) =>
          match convert n with
          | .error reason => stopBefore reason rest
          | .ok value => .ok (value, rest)
      else readOther expected (c :: rest)
    | [] => stopBefore .endInValue []

/-- The whole number below a bound that a number is. -/
def toBelow (expected : String) (bound : Nat) : Scalar → Except Reason Nat
  | .natural n => if n < bound then .ok n else .error (.wrongValue (.natural n) expected)
  | .negative n => .error (.wrongValue (.negative n) expected)
  | .float x => .error (.wrongType (.float x) expected)

/-- The float that a number is. -/
def toFloat : Scalar → Except Reason Binary64
  | .natural n => .ok (.ofMagnitude false (Binary64.nearest n 1))
  | .negative n => .ok (.ofMagnitude true (Binary64.nearest n 1))
  | .float x => .ok x

/-- Reads a whole number of 64 bits. -/
def readCount : Reader UInt64 :=
  readScalar "usize" fun n => (toBelow "usize" (twoTo 64) n).map UInt64.ofNat

/-- Reads a number of seconds. -/
def readSeconds : Reader UInt64 :=
  readScalar "u64" fun n => (toBelow "u64" (twoTo 64) n).map UInt64.ofNat

/-- Reads a port number. -/
def readPort : Reader UInt16 :=
  readScalar "u16" fun n => (toBelow "u16" (twoTo 16) n).map UInt16.ofNat

/-- Reads a float. -/
def readFloat : Reader Binary64 :=
  readScalar "f64" toFloat

/-- Reads a string. -/
def readStringAs (expected : String) : Reader String :=
  fun s =>
    match skipBlanks s with
    | '"' :: rest => readString rest
    | rest => readOther expected rest

/-- Reads a text. -/
def readText : Reader String :=
  readStringAs "a string"

/-- Reads a path. -/
def readPath : Reader String :=
  readStringAs "path string"

/-- Reads a value, or `null` for its absence. -/
def readOption {α : Type} (read : Reader α) : Reader (Option α) :=
  fun s =>
    match skipBlanks s with
    | 'n' :: rest => (readWord ['u', 'l', 'l'] rest).map fun rest => (none, rest)
    | rest => (read rest).map fun (value, rest) => (some value, rest)

/-! ### Lists -/

/-- Goes on to the next element of a list, none at its end. The first element follows the bracket
without a comma. -/
def nextElement (first : Bool) (s : List Char) : Result Bool :=
  match skipBlanks s with
  | [] => stopBefore .endInList []
  | ']' :: rest => .ok (false, ']' :: rest)
  | ',' :: rest =>
    if first then .ok (true, ',' :: rest)
    else
      match skipBlanks rest with
      | [] => stopBefore .endInValue []
      | ']' :: rest => stopAfter .trailingComma (']' :: rest)
      | rest => .ok (true, rest)
  | rest => if first then .ok (true, rest) else stopAfter .noCommaInList rest

/-- Reads the elements of a list up to its closing bracket. Every step takes a character, and `fuel`
is at least the length of the text. -/
def readElements {α : Type} (read : Reader α) (fuel : Nat) (first : Bool) (s : List Char) :
    Result (List α) :=
  match fuel with
  | 0 => stopBefore .endInList []
  | fuel + 1 =>
    match nextElement first s with
    | .error stop => .error stop
    | .ok (false, rest) => .ok ([], rest)
    | .ok (true, rest) =>
      match read rest with
      | .error stop => .error stop
      | .ok (value, rest) =>
        (readElements read fuel false rest).map fun (values, rest) => (value :: values, rest)

/-- Reads a closing bracket after a value. -/
def closeWith {α : Type} (close : List Char → Except Stop (List Char)) : Result α → Result α
  | .error stop => .error stop
  | .ok (value, rest) => (close rest).map (value, ·)

/-- Reads the closing bracket of a list. -/
def closeList (s : List Char) : Except Stop (List Char) :=
  match skipBlanks s with
  | [] => stopBefore .endInList []
  | ']' :: rest => .ok rest
  | ',' :: rest =>
    match skipBlanks rest with
    | ']' :: rest => stopAfter .trailingComma (']' :: rest)
    | rest => stopAfter .trailing rest
  | rest => stopAfter .trailing rest

/-- Reads a list. -/
def readListOf {α : Type} (read : Reader α) : Reader (List α) :=
  fun s =>
    match skipBlanks s with
    | '[' :: rest => closeWith closeList (readElements read (rest.length + 1) true rest)
    | rest => readOther "a sequence" rest

/-! ### Records -/

/-- A field of a record: its name, and a reader that returns how its value changes the record. -/
structure RecordField (α : Type) where
  name : String
  read : Reader (α → α)

/-- A field whose value is read by `read` and put into the record by `set`. -/
def RecordField.of {α β : Type} (name : String) (read : Reader β) (set : β → α → α) :
    RecordField α :=
  ⟨name, fun s => (read s).map fun (value, rest) => (set value, rest)⟩

/-- Reads the fields of a record that is written as a list. -/
def readInOrder {α : Type} : List (RecordField α) → Bool → α → Reader α
  | [], _, record, s => .ok (record, s)
  | field :: fields, first, record, s =>
    match nextElement first s with
    | .error stop => .error stop
    | .ok (false, rest) => .ok (record, rest)
    | .ok (true, rest) =>
      match field.read rest with
      | .error stop => .error stop
      | .ok (set, rest) => readInOrder fields false (set record) rest

/-- Goes on to the name of the next member of an object, none at its end. -/
def nextMember (first : Bool) (s : List Char) : Result Bool :=
  match skipBlanks s with
  | [] => stopBefore .endInObject []
  | '\x7d' :: rest => .ok (false, '\x7d' :: rest)
  | c :: rest =>
    if first then
      if c = '"' then .ok (true, rest) else stopAfter .key (c :: rest)
    else if c = ',' then
      match skipBlanks rest with
      | [] => stopBefore .endInValue []
      | '"' :: rest => .ok (true, rest)
      | '\x7d' :: rest => stopAfter .trailingComma ('\x7d' :: rest)
      | rest => stopAfter .key rest
    else stopAfter .noCommaInObject (c :: rest)

/-- The fault for a field that comes again. It is placed after the blanks that follow the name, and
after a closing brace there. -/
def stopAtDuplicate {α : Type} (name : String) (s : List Char) : Except Stop α :=
  match skipBlanks s with
  | '\x7d' :: rest => stopBefore (.duplicate name) rest
  | rest => stopBefore (.duplicate name) rest

/-- Reads the members of an object up to its closing brace, into a record whose fields `seen` have
been read. Every step takes a character, and `fuel` is at least the length of the text. -/
def readMembers {α : Type} (fields : List (RecordField α)) (fuel : Nat) (first : Bool)
    (seen : List String) (record : α) (s : List Char) : Result α :=
  match fuel with
  | 0 => stopBefore .endInObject []
  | fuel + 1 =>
    match nextMember first s with
    | .error stop => .error stop
    | .ok (false, rest) => .ok (record, rest)
    | .ok (true, rest) =>
      match readString rest with
      | .error stop => .error stop
      | .ok (name, rest) =>
        match fields.find? (·.name = name) with
        | none =>
          match readColon rest >>= skip with
          | .error stop => .error stop
          | .ok rest => readMembers fields fuel false seen record rest
        | some field =>
          if name ∈ seen then stopAtDuplicate name rest
          else
            match readColon rest >>= field.read with
            | .error stop => .error stop
            | .ok (set, rest) => readMembers fields fuel false (name :: seen) (set record) rest

/-- Reads the closing brace of an object. -/
def closeObject (s : List Char) : Except Stop (List Char) :=
  match skipBlanks s with
  | [] => stopBefore .endInObject []
  | '\x7d' :: rest => .ok rest
  | ',' :: rest => stopAfter .trailingComma (',' :: rest)
  | rest => stopAfter .trailing rest

/-- Reads a record, whose fields start from a default. -/
def readRecord {α : Type} (expected : String) (fields : List (RecordField α)) (default : α) :
    Reader α :=
  fun s =>
    match skipBlanks s with
    | '[' :: rest => closeWith closeList (readInOrder fields true default rest)
    | '\x7b' :: rest =>
      closeWith closeObject (readMembers fields (rest.length + 1) true [] default rest)
    | rest => readOther expected rest

/-- Reads a whole text; only blanks may follow the value. -/
def read {α : Type} (reader : Reader α) (text : List Char) : Except Fault α :=
  match reader text with
  | .error stop => .error (stop.inText text)
  | .ok (value, rest) =>
    match skipBlanks rest with
    | [] => .ok value
    | rest => .error (Stop.inText ⟨.trailing, Text.byteLength rest - 1⟩ text)

end BenchSweep.Json
