import BenchSweep.Text.Blank
import BenchSweep.Text.Quoted
import BenchSweep.Number.Numeral

/-!
# Comma-separated lists

Lists of numbers as they are given on the command line. Entries are separated by commas; blanks
around an entry do not matter, and blank entries are skipped. The first entry that cannot be read is
the one that is reported.

## Main definitions

* `entries`: the entries of a list, trimmed.
* `readList`: the values of the entries.
-/

namespace BenchSweep

/-- An entry of a list that cannot be read, and why. -/
structure ListError (ε : Type) where
  entry : List Char
  cause : ε
  deriving DecidableEq, Repr

/-- The wording for an entry that cannot be read; the cause is told separately. -/
def ListError.message {ε : Type} (e : ListError ε) : String :=
  "invalid list entry " ++ Text.quote (String.ofList e.entry)

/-- The entries of a list: the pieces between commas, trimmed, without the blank ones. -/
def entries (s : List Char) : List (List Char) :=
  ((Text.splitOn ',' s).map Text.trim).filter (· ≠ [])

/-- Reads every entry, up to the first that cannot be read. -/
def readEntries {ε α : Type} (read : List Char → Except ε α) :
    List (List Char) → Except (ListError ε) (List α)
  | [] => .ok []
  | entry :: rest =>
    match read entry with
    | .error cause => .error ⟨entry, cause⟩
    | .ok value => (readEntries read rest).map (value :: ·)

/-- Reads a comma-separated list. -/
def readList {ε α : Type} (read : List Char → Except ε α) (s : List Char) :
    Except (ListError ε) (List α) :=
  readEntries read (entries s)

/-- Reads a list of counts. -/
def readCounts (s : String) : Except (ListError Number.CountError) (List UInt64) :=
  readList Number.readCount s.toList

/-- Reads a list of ratios. -/
def readRatios (s : String) : Except (ListError Number.NumeralError) (List Number.Binary64) :=
  readList Number.readBinary64 s.toList

end BenchSweep
