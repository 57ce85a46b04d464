/-!
# Blank characters

The characters with the Unicode property White_Space, the removal of blank ends, and the words
between blanks. Core's `Char.isWhitespace` knows four of the twenty-five characters.

## Main definitions

* `isBlank`: the property.
* `trim`, `trimEnd`: a text without its blank ends.
* `words`: the non-empty pieces between blanks.
-/

namespace BenchSweep.Text

/-- Membership of a code point in a list of closed ranges. -/
def inRanges (ranges : List (Nat × Nat)) (n : Nat) : Bool :=
  ranges.any fun r => r.1 ≤ n && n ≤ r.2

/-- The ranges of White_Space, ascending and apart. -/
def blankRanges : List (Nat × Nat) :=
  [(0x09, 0x0D), (0x20, 0x20), (0x85, 0x85), (0xA0, 0xA0), (0x1680, 0x1680), (0x2000, 0x200A),
    (0x2028, 0x2029), (0x202F, 0x202F), (0x205F, 0x205F), (0x3000, 0x3000)]

/-- A character is blank when it has the property White_Space. -/
def isBlank (c : Char) : Bool :=
  inRanges blankRanges c.toNat

/-- The text from its first character that is not blank. -/
def trimStart (s : List Char) : List Char :=
  s.dropWhile isBlank

/-- The text up to its last character that is not blank. -/
def trimEnd (s : List Char) : List Char :=
  (s.reverse.dropWhile isBlank).reverse

/-- The text without blanks at either end. -/
def trim (s : List Char) : List Char :=
  trimEnd (trimStart s)

/-- The words of a text, with the word `current` still open; its characters are kept in reverse. -/
def wordsFrom (current : List Char) : List Char → List (List Char)
  | [] => if current = [] then [] else [current.reverse]
  | c :: rest =>
    if isBlank c then
      if current = [] then wordsFrom [] rest else current.reverse :: wordsFrom [] rest
    else
      wordsFrom (c :: current) rest

/-- The non-empty pieces of a text between its blanks, in order. -/
def words (s : String) : List String :=
  (wordsFrom [] s.toList).map String.ofList

/-! ### Pieces between separators -/

/-- The pieces of a text between the occurrences of `sep`, with the piece `current` still open; its
characters are kept in reverse. -/
def splitOnFrom (sep : Char) (current : List Char) : List Char → List (List Char)
  | [] => [current.reverse]
  | c :: rest =>
    if c = sep then current.reverse :: splitOnFrom sep [] rest
    else splitOnFrom sep (c :: current) rest

/-- The pieces of a text between the occurrences of `sep`: one more than there are occurrences. -/
def splitOn (sep : Char) (s : List Char) : List (List Char) :=
  splitOnFrom sep [] s

end BenchSweep.Text
