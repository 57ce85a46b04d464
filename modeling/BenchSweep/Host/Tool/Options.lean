import BenchSweep.Host.Stream

/-!
# Options of tools

Options come in front of, or among, the operands of a tool. A word of a dash and letters holds
several options; one that takes a value takes the rest of the word, or the next one. Two dashes end
the options.

## Main definitions

* `Flag`: an option with its value.
* `FlagSet.read`: the options and operands of a tool.
-/

namespace BenchSweep.Host.Tool

/-- An option, and its value if it takes one. -/
structure Flag where
  letter : Char
  value : Raw := []
  deriving DecidableEq, Repr

/-- What is wrong with the options of a tool. -/
inductive FlagError where
  | unknown (letter : Char)
  | unknownLong (word : Raw)
  | noValue (letter : Char)
  | noLongValue (word : Raw)
  deriving DecidableEq, Repr

/-- The options that a tool knows: letters alone, letters with a value, letters with a value that
may be left out and otherwise is the rest of the word, and long names for some. -/
structure FlagSet where
  plain : List Char
  valued : List Char := []
  optional : List Char := []
  long : List (String × Char) := []

/-- The options in a word, from behind its dash, and whether the last one takes the next word. -/
def FlagSet.readWord (s : FlagSet) : Raw → Except FlagError (List Flag × Option Char)
  | [] => .ok ([], none)
  | c :: rest =>
    if s.valued.contains c then
      if rest = [] then .ok ([], some c) else .ok ([⟨c, rest⟩], none)
    else if s.optional.contains c then .ok ([⟨c, rest⟩], none)
    else if s.plain.contains c then
      match s.readWord rest with
      | .ok (flags, pending) => .ok (⟨c, []⟩ :: flags, pending)
      | .error e => .error e
    else .error (.unknown c)

/-- The options and the operands of a tool. -/
def FlagSet.read (s : FlagSet) : List Raw → Except FlagError (List Flag × List Raw)
  | [] => .ok ([], [])
  | ['-', '-'] :: rest => .ok ([], rest)
  | ('-' :: '-' :: name) :: rest =>
    let key := String.ofList (name.takeWhile (· ≠ '='))
    let value := (name.dropWhile (· ≠ '=')).drop 1
    match s.long.lookup key with
    | none => .error (.unknownLong ('-' :: '-' :: name))
    | some c =>
      if s.valued.contains c && !name.contains '=' then
        match rest with
        | [] => .error (.noLongValue ('-' :: '-' :: name))
        | value :: rest =>
          (s.read rest).map fun (flags, operands) => (⟨c, value⟩ :: flags, operands)
      else (s.read rest).map fun (flags, operands) => (⟨c, value⟩ :: flags, operands)
  | ('-' :: c :: letters) :: rest =>
    match s.readWord (c :: letters) with
    | .error e => .error e
    | .ok (flags, none) => (s.read rest).map fun (more, operands) => (flags ++ more, operands)
    | .ok (flags, some letter) =>
      match rest with
      | [] => .error (.noValue letter)
      | value :: rest =>
        (s.read rest).map fun (more, operands) => (flags ++ ⟨letter, value⟩ :: more, operands)
  | word :: rest => (s.read rest).map fun (flags, operands) => (flags, word :: operands)

/-- Whether an option is given. -/
def hasFlag (flags : List Flag) (letter : Char) : Bool :=
  flags.any (·.letter = letter)

/-- The wording of an error about options. -/
def FlagError.message : FlagError → Raw
  | .unknown c => Raw.ofString "invalid option -- '" ++ [c, '\'']
  | .unknownLong word => Raw.ofString "unrecognized option " ++ apostrophes word
  | .noValue c => Raw.ofString "option requires an argument -- '" ++ [c, '\'']
  | .noLongValue word =>
    Raw.ofString "option " ++ apostrophes word ++ Raw.ofString " requires an argument"

/-- Tells that a tool was called in a wrong way; `more` holds further lines about it. -/
def misuse (c : Call) (message : Raw) (status : Nat) (more : List String := []) : Proc Nat := do
  c.complain message
  Proc.write c.errors (Raw.ofLines (more.map Raw.ofString))
  Proc.write c.errors
    (Raw.ofString "Try '" ++ c.label ++ Raw.ofString " --help' for more information.\n")
  return status

end BenchSweep.Host.Tool
