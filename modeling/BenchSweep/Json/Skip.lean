import BenchSweep.Json.Scalar

/-!
# Values that are skipped

The value of an unknown member is read only to find its end. It has to be JSON, but numbers may have
any size, strings may hold halves of surrogate pairs, and values may be nested to any depth: what is
still open is kept in a list of frames.

## Main definitions

* `Frame`: an open list or object.
* `skip`: the text after a value.
-/

namespace BenchSweep.Json

open Text (byteLength)

/-- Skips the rest of a string after its opening quote. -/
def skipString : List Char → Except Stop (List Char)
  | [] => stopBefore .endInString []
  | '"' :: rest => .ok rest
  | '\\' :: 'u' :: a :: b :: c :: d :: rest =>
    match hexValue? a b c d with
    | some _ => skipString rest
    | none => .error ⟨.escape, byteLength (a :: b :: c :: d :: rest) - 4⟩
  | '\\' :: 'u' :: rest => (readHex rest).map Prod.snd
  | '\\' :: c :: rest =>
    match shortEscape? c with
    | some _ => skipString rest
    | none => stopAfter .escape (c :: rest)
  | c :: rest =>
    if isControl c then stopBefore .control (c :: rest)
    else skipString rest

/-- Skips an exponent after its `e`. -/
def skipExponent (s : List Char) : Except Stop (List Char) :=
  match (exponentSign s).2 with
  | [] => stopBefore .number []
  | c :: rest => if Number.isDigit c then .ok (afterDigits rest) else stopAfter .number (c :: rest)

/-- Skips what follows the digits of a number: an exponent, or nothing. -/
def skipScale : List Char → Except Stop (List Char)
  | 'e' :: rest | 'E' :: rest => skipExponent rest
  | s => .ok s

/-- Skips what follows the whole part of a number. -/
def skipTail : List Char → Except Stop (List Char)
  | '.' :: rest =>
    match digitRun rest with
    | [] => stopAfter .number rest
    | _ :: _ => skipScale (afterDigits rest)
  | s => skipScale s

/-- Skips a number after its sign. -/
def skipUnsigned : List Char → Except Stop (List Char)
  | [] => stopBefore .number []
  | c :: rest =>
    if c = '0' then
      match digitRun rest with
      | [] => skipTail rest
      | _ :: _ => stopAfter .number rest
    else if Number.isDigit c then skipTail (afterDigits rest)
    else stopAfter .number (c :: rest)

/-- Skips a value that is neither a list nor an object. -/
def skipScalar : List Char → Except Stop (List Char)
  | 'n' :: rest => readWord ['u', 'l', 'l'] rest
  | 't' :: rest => readWord ['r', 'u', 'e'] rest
  | 'f' :: rest => readWord ['a', 'l', 's', 'e'] rest
  | '"' :: rest => skipString rest
  | '-' :: rest => skipUnsigned rest
  | c :: rest =>
    if Number.isDigit c then skipUnsigned (c :: rest) else stopAfter .noValue (c :: rest)
  | [] => stopBefore .endInValue []

/-- Reads the colon after a name. -/
def readColon (s : List Char) : Except Stop (List Char) :=
  match skipBlanks s with
  | [] => stopBefore .endInObject []
  | ':' :: rest => .ok rest
  | rest => stopAfter .noColon rest

/-- Skips a name and the colon after it. -/
def skipName (s : List Char) : Except Stop (List Char) :=
  match skipBlanks s with
  | [] => stopBefore .endInObject []
  | '"' :: rest => skipString rest >>= readColon
  | rest => stopAfter .key rest

/-- A list or an object that is open. -/
inductive Frame where
  | list
  | object
  deriving DecidableEq, Repr

mutual

/-- Skips a value inside open frames, and all that follows up to the end of the outermost one. Every
call takes a character or is the last, so `fuel` beyond the length of the text suffices. -/
def skipValue (fuel : Nat) (frames : List Frame) (s : List Char) : Except Stop (List Char) :=
  match fuel, skipBlanks s with
  | 0, _ | _, [] => stopBefore .endInValue []
  | fuel + 1, '[' :: rest =>
    match skipBlanks rest with
    | [] => stopBefore .endInList []
    | ']' :: rest => skipAfter fuel frames rest
    | rest => skipValue fuel (.list :: frames) rest
  | fuel + 1, '\x7b' :: rest =>
    match skipBlanks rest with
    | [] => stopBefore .endInObject []
    | '\x7d' :: rest => skipAfter fuel frames rest
    | rest =>
      match skipName rest with
      | .error stop => .error stop
      | .ok rest => skipValue fuel (.object :: frames) rest
  | fuel + 1, rest =>
    match skipScalar rest with
    | .error stop => .error stop
    | .ok rest => skipAfter fuel frames rest

/-- Skips what follows a value inside open frames. -/
def skipAfter (fuel : Nat) (frames : List Frame) (s : List Char) : Except Stop (List Char) :=
  match fuel, frames with
  | _, [] => .ok s
  | 0, _ => stopBefore .endInValue []
  | fuel + 1, .list :: outer =>
    match skipBlanks s with
    | [] => stopBefore .endInList []
    | ',' :: rest => skipValue fuel (.list :: outer) rest
    | ']' :: rest => skipAfter fuel outer rest
    | rest => stopAfter .noCommaInList rest
  | fuel + 1, .object :: outer =>
    match skipBlanks s with
    | [] => stopBefore .endInObject []
    | ',' :: rest =>
      match skipName rest with
      | .error stop => .error stop
      | .ok rest => skipValue fuel (.object :: outer) rest
    | '\x7d' :: rest => skipAfter fuel outer rest
    | rest => stopAfter .noCommaInObject rest

end

/-- The text after the value in front of it. -/
def skip (s : List Char) : Except Stop (List Char) :=
  skipValue (s.length + 1) [] s

end BenchSweep.Json
