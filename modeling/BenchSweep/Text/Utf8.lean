/-!
# UTF-8

Bytes as text. One step, `nextPiece`, reads either a character or a longest malformed run from the
front of a byte string; strict and lossy decoding are two readings of the list of pieces, so they
agree on well-formed input by construction.

## Main definitions

* `encode`: the bytes of a text.
* `pieces`: a byte string cut into characters and malformed runs.
* `decode?`: the text, if no run is malformed.
* `decodeLossy`: the text with one replacement character for each malformed run.
-/

namespace BenchSweep.Text

/-- A byte string. -/
abbrev Bytes := List UInt8

/-- The bytes of a text. -/
def encode (s : List Char) : Bytes :=
  s.flatMap String.utf8EncodeChar

/-- The bytes of a string. -/
def bytesOf (s : String) : Bytes :=
  encode s.toList

/-- How many bytes a text takes. -/
def byteLength (s : List Char) : Nat :=
  s.foldr (fun c n => c.utf8Size + n) 0

/-- A part of a byte string: a character, or a run that no continuation makes a character. -/
inductive Piece where
  | char (c : Char)
  | malformed
  deriving DecidableEq, Repr

/-- The six low bits of a continuation byte. -/
def lowBits (b : UInt8) : Nat :=
  b.toNat % 64

/-- A continuation byte: `10xxxxxx`. -/
def isContinuation (b : UInt8) : Bool :=
  0x80 ≤ b.toNat && b.toNat ≤ 0xBF

/-- The bytes that may follow the lead byte of a sequence of three or four bytes. The narrower
ranges rule out overlong forms, surrogates and numbers beyond the last code point. -/
def isSecond (lead second : UInt8) : Bool :=
  let b := second.toNat
  match lead.toNat with
  | 0xE0 => 0xA0 ≤ b && b ≤ 0xBF
  | 0xED => 0x80 ≤ b && b ≤ 0x9F
  | 0xF0 => 0x90 ≤ b && b ≤ 0xBF
  | 0xF4 => 0x80 ≤ b && b ≤ 0x8F
  | _ => 0x80 ≤ b && b ≤ 0xBF

/-- The number of bytes that a lead byte announces, `0` if it can lead no sequence. -/
def sequenceLength (lead : UInt8) : Nat :=
  let b := lead.toNat
  if b < 0x80 then 1
  else if 0xC2 ≤ b && b ≤ 0xDF then 2
  else if 0xE0 ≤ b && b ≤ 0xEF then 3
  else if 0xF0 ≤ b && b ≤ 0xF4 then 4
  else 0

/-- The first piece of a byte string that starts with `lead`, and the bytes after it. A malformed
piece is the longest beginning of a sequence that is present. -/
def nextPiece (lead : UInt8) (rest : Bytes) : Piece × Bytes :=
  match sequenceLength lead, rest with
  | 1, rest => (.char (Char.ofNat lead.toNat), rest)
  | 2, b :: rest =>
    if isContinuation b then (.char (Char.ofNat (lead.toNat % 32 * 64 + lowBits b)), rest)
    else (.malformed, b :: rest)
  | 3, b :: rest =>
    if isSecond lead b then
      match rest with
      | c :: rest =>
        if isContinuation c then
          (.char (Char.ofNat ((lead.toNat % 16 * 64 + lowBits b) * 64 + lowBits c)), rest)
        else (.malformed, c :: rest)
      | [] => (.malformed, [])
    else (.malformed, b :: rest)
  | 4, b :: rest =>
    if isSecond lead b then
      match rest with
      | c :: rest =>
        if isContinuation c then
          match rest with
          | d :: rest =>
            if isContinuation d then
              (.char (Char.ofNat
                (((lead.toNat % 8 * 64 + lowBits b) * 64 + lowBits c) * 64 + lowBits d)), rest)
            else (.malformed, d :: rest)
          | [] => (.malformed, [])
        else (.malformed, c :: rest)
      | [] => (.malformed, [])
    else (.malformed, b :: rest)
  | _, rest => (.malformed, rest)

theorem length_nextPiece_le (lead : UInt8) (rest : Bytes) :
    (nextPiece lead rest).2.length ≤ rest.length := by
  unfold nextPiece
  split
  · simp
  · split <;> simp
  · split
    · split
      · split
        · simp
          omega
        · simp
      · simp
    · simp
  · split
    · split
      · split
        · split
          · split
            · simp
              omega
            · simp
          · simp
        · simp
      · simp
    · simp
  · simp

/-- A byte string cut into its pieces. -/
def pieces : Bytes → List Piece
  | [] => []
  | lead :: rest => (nextPiece lead rest).1 :: pieces (nextPiece lead rest).2
termination_by bytes => bytes.length
decreasing_by
  have := length_nextPiece_le lead rest
  simp only [List.length_cons]
  omega

/-- The character of a piece, if it is one. -/
def Piece.char? : Piece → Option Char
  | .char c => some c
  | .malformed => none

/-- The character shown for a piece: U+FFFD stands for a malformed run. -/
def Piece.shown : Piece → Char
  | .char c => c
  | .malformed => '\uFFFD'

/-- The text that a byte string encodes, if every piece of it is a character. -/
def decode? (bytes : Bytes) : Option (List Char) :=
  (pieces bytes).mapM Piece.char?

/-- The text of a byte string, with U+FFFD for each malformed run. -/
def decodeLossy (bytes : Bytes) : List Char :=
  (pieces bytes).map Piece.shown

end BenchSweep.Text
