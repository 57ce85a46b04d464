import BenchSweep.Host.Tool.Options
import BenchSweep.Number.Numeral
import BenchSweep.Number.Shortest

/-!
# Printing tools

The tools `echo` and `printf`, as programs of their own and as the commands of the shell, which
differ in the escapes that they know and in what they warn about.

## Main definitions

* `Dialect`: program or shell command.
* `echo`, `printf`: the tools.
-/

namespace BenchSweep.Host.Tool

/-- Whether a tool is a program of its own or a command of the shell. -/
inductive Dialect where
  | program
  | shell
  deriving DecidableEq, Repr

/-! ### Escapes -/

/-- A digit in base eight. -/
def isOctal (c : Char) : Bool :=
  '0' ≤ c && c ≤ '7'

/-- The value of digits in a base up to sixteen. -/
def baseValue (base : Nat) (digits : List Char) : Nat :=
  digits.foldl
    (fun n c =>
      let d :=
        if c.isDigit then c.toNat - '0'.toNat
        else if 'a' ≤ c ∧ c ≤ 'f' then c.toNat - 'a'.toNat + 10
        else c.toNat - 'A'.toNat + 10
      n * base + d)
    0

/-- A byte by its number. -/
def byteChar (n : Nat) : Char :=
  Char.ofNat (n % 256)

/-- The octal escape in front of a text, of at most `most` digits. -/
def octalEscape (most : Nat) (r : Raw) : Char × Raw :=
  let digits := (r.take most).takeWhile isOctal
  (byteChar (baseValue 8 digits), r.drop digits.length)

/-- The character that a letter after a backslash stands for. -/
def letterEscape? : Char → Option Char
  | '\\' => some '\\'
  | 'a' => some '\x07'
  | 'b' => some '\x08'
  | 'f' => some '\x0c'
  | 'n' => some '\n'
  | 'r' => some '\r'
  | 't' => some '\t'
  | 'v' => some '\x0b'
  | 'e' => some '\x1b'
  | _ => none

/-- A digit in base sixteen. -/
def isHex (c : Char) : Bool :=
  c.isDigit || ('a' ≤ c && c ≤ 'f') || ('A' ≤ c && c ≤ 'F')

/-- The number of digits of an escape for a character by its number. -/
def numberEscape? : Char → Option Nat
  | 'u' => some 4
  | 'U' => some 8
  | _ => none

/-- The bytes of the character that digits stand for, and the text after them. -/
def characterEscape (places : Nat) (r : Raw) : Option (Raw × Raw) :=
  let digits := (r.take places).takeWhile isHex
  if digits.length = places then
    some (Raw.ofString (String.ofList [Char.ofNat (baseValue 16 digits)]), r.drop places)
  else none

/-- The text of an escape, and the text after it, which is given from behind the backslash. -/
def escape (d : Dialect) (r : Raw) : Raw × Raw :=
  match r with
  | [] => (['\\'], [])
  | c :: rest =>
    if isOctal c then
      let (x, rest) := octalEscape 3 r
      ([x], rest)
    else
      match letterEscape? c with
      | some x => ([x], rest)
      | none =>
        if d = .program ∧ c = 'x' ∧ (rest.head?.map isHex).getD false then
          let digits := (rest.take 2).takeWhile isHex
          ([byteChar (baseValue 16 digits)], rest.drop digits.length)
        else if d = .program then
          ((numberEscape? c).bind (characterEscape · rest)).getD (['\\', c], rest)
        else (['\\'], r)

/-- A text with its escapes replaced, and whether an escape asks to stop; here octal escapes start
with a zero, which is not one of their digits. -/
def expandEscapes (d : Dialect) (fuel : Nat) (r : Raw) : Raw × Bool :=
  match fuel, r with
  | 0, _ | _, [] => ([], false)
  | fuel + 1, '\\' :: rest =>
    match rest with
    | 'c' :: _ => ([], true)
    | _ =>
      let (text, rest) :=
        match rest with
        | '0' :: c :: after => if isOctal c then escape d (c :: after) else escape d rest
        | _ => escape d rest
      let (more, stop) := expandEscapes d fuel rest
      (text ++ more, stop)
  | fuel + 1, c :: rest =>
    let (more, stop) := expandEscapes d fuel rest
    (c :: more, stop)

/-- Words with blanks between them. -/
def spaced (words : List Raw) : Raw :=
  List.intercalate [' '] words

/-! ### The tool `echo` -/

/-- The options in front of the words of `echo`: whether the line feed is left out, whether escapes
are replaced, and the words. -/
def echoOptions : Bool → Bool → List Raw → Bool × Bool × List Raw
  | bare, escapes, ('-' :: letters) :: rest =>
    if letters ≠ [] ∧ letters.all fun c => c = 'n' || c = 'e' || c = 'E' then
      let escapes := match letters.filter (· ≠ 'n') with
        | [] => escapes
        | switches => switches.getLast? = some 'e'
      echoOptions (bare || letters.contains 'n') escapes rest
    else (bare, escapes, ('-' :: letters) :: rest)
  | bare, escapes, words => (bare, escapes, words)

/-- Prints words. -/
def echo (d : Dialect) (c : Call) : Proc Nat := do
  let (bare, escapes, words) :=
    match d with
    | .program => echoOptions false false c.args
    | .shell =>
      match c.args with
      | ['-', 'n'] :: words => (true, true, words)
      | words => (false, true, words)
  let line := spaced words
  let (text, stop) := if escapes then expandEscapes d line.length line else (line, false)
  c.say (text ++ if bare || stop then [] else ['\n'])
  return 0

/-! ### Numbers of `printf` -/

/-- A number of a given base with at least `places` digits. -/
def digitsIn (base n places : Nat) : Raw :=
  let digits := Nat.toDigits base n
  List.replicate (places - digits.length) '0' ++ digits

/-- A quotient with a fixed number of places. -/
def fixedPoint (num den places : Nat) : Raw :=
  let n := Number.roundHalfEven (num * Number.tenTo places) den
  let digits := digitsIn 10 n (places + 1)
  if places = 0 then digits
  else digits.take (digits.length - places) ++ '.' :: digits.drop (digits.length - places)

/-- The first digits of a quotient, one before the point and `places` after it, and the exponent. -/
def leadingDigits (num den places : Nat) : Raw × Int :=
  if num = 0 then (List.replicate (places + 1) '0', 0)
  else
    let lead := Number.leadingExponent num den
    let (a, b) := Number.inSteps num den (lead - (places : Int))
    let n := Number.roundHalfEven a b
    if n < Number.tenTo (places + 1) then (digitsIn 10 n (places + 1), lead)
    else (digitsIn 10 (n / 10) (places + 1), lead + 1)

/-- An exponent with its letter and its sign. -/
def exponentText (letter : Char) (e : Int) : Raw :=
  letter :: (if e < 0 then '-' else '+') :: digitsIn 10 e.natAbs 2

/-- A quotient in scientific notation. -/
def scientific (letter : Char) (num den places : Nat) : Raw :=
  let (digits, e) := leadingDigits num den places
  digits.take 1 ++ (if places = 0 then [] else '.' :: digits.drop 1) ++ exponentText letter e

/-- A fraction without zeros at its end, and without its point if nothing is left of it. -/
def stripFraction (r : Raw) : Raw :=
  if r.contains '.' then
    match r.reverse.dropWhile (· = '0') with
    | '.' :: whole => whole.reverse
    | digits => digits.reverse
  else r

/-- A quotient in the shorter of both notations, with `places` significant digits. -/
def general (letter : Char) (num den places : Nat) (keep : Bool) : Raw :=
  let places := max places 1
  let (digits, e) := leadingDigits num den (places - 1)
  if -4 ≤ e ∧ e < places then
    let text := fixedPoint num den (((places : Int) - 1 - e).toNat)
    if keep then text else stripFraction text
  else
    let mantissa := digits.take 1 ++ (if places = 1 then [] else '.' :: digits.drop 1)
    (if keep then mantissa else stripFraction mantissa) ++ exponentText letter e

/-! ### The tool `printf` -/

/-- A conversion of a format. -/
structure Conversion where
  flags : Raw
  width : Option Nat
  precision : Option Nat
  kind : Char
  deriving Repr

/-- A text filled up to the width of a conversion. Zeros go between the sign and the digits. -/
def Conversion.pad (v : Conversion) (zeros : Bool) (r : Raw) : Raw :=
  let missing := v.width.getD 0 - r.length
  if v.flags.contains '-' then r ++ List.replicate missing ' '
  else if zeros && v.flags.contains '0' then
    match r with
    | '-' :: rest => '-' :: (List.replicate missing '0' ++ rest)
    | '+' :: rest => '+' :: (List.replicate missing '0' ++ rest)
    | rest => List.replicate missing '0' ++ rest
  else List.replicate missing ' ' ++ r

/-- The sign in front of a number. -/
def Conversion.sign (v : Conversion) (negative : Bool) : Raw :=
  if negative then ['-']
  else if v.flags.contains '+' then ['+']
  else if v.flags.contains ' ' then [' ']
  else []

/-- How far a numeric argument could be read. -/
inductive ArgumentState where
  | whole
  | partly
  | none
  | outOfRange
  deriving DecidableEq, Repr

/-- An integer of a numeric argument between two bounds. -/
def clampArgument (least greatest : Int) (n : Int) (state : ArgumentState) : Int × ArgumentState :=
  if n < least ∨ greatest < n then (max least (min greatest n), .outOfRange) else (n, state)

/-- The integer in front of an argument: decimal, octal after a zero, hexadecimal after `0x`, or the
number of the character after a quote. -/
def integerArgument (r : Raw) : Int × ArgumentState :=
  match r with
  | [] => (0, .whole)
  | '\'' :: c :: rest | '"' :: c :: rest => (c.toNat, if rest = [] then .whole else .partly)
  | _ =>
    let r := r.dropWhile Raw.isBlank
    let (negative, body) :=
      match r with
      | '-' :: rest => (true, rest)
      | '+' :: rest => (false, rest)
      | rest => (false, rest)
    let (base, body) : Nat × Raw :=
      match body with
      | '0' :: x :: c :: rest =>
        if (x = 'x' ∨ x = 'X') ∧ isHex c then (16, c :: rest) else (8, body)
      | '0' :: _ => (8, body)
      | _ => (10, body)
    let isDigit (c : Char) : Bool :=
      if base = 16 then isHex c else if base = 8 then isOctal c else c.isDigit
    let digits := body.takeWhile isDigit
    if digits = [] then (0, .none)
    else
      let n : Int := baseValue base digits
      (if negative then -n else n, if digits.length = body.length then .whole else .partly)

/-- The number in front of an argument. -/
def floatArgument (r : Raw) : Number.Binary64 × ArgumentState :=
  let r' := r.dropWhile Raw.isBlank
  if r' = [] then (⟨0⟩, if r = [] then .whole else .none)
  else
    match (List.range (r'.length + 1)).reverse.findSome? fun n =>
        (Number.readBinary64 (r'.take n)).toOption.map (·, n) with
    | some (x, n) => (x, if n = r'.length then .whole else .partly)
    | none => (⟨0⟩, .none)

/-- The text of a number. -/
def Conversion.float (v : Conversion) (x : Number.Binary64) : Raw :=
  let places := v.precision.getD 6
  let upper := v.kind.isUpper
  if !x.isFinite then
    let word := Raw.ofString (if x.isNaN then "nan" else "inf")
    v.pad false (v.sign x.isNegative ++ if upper then word.map Char.toUpper else word)
  else
    let num := Number.Binary64.units x.magnitude
    let den := Number.Binary64.unitsPerOne
    let letter := if upper then 'E' else 'e'
    let text :=
      match v.kind.toLower with
      | 'f' => fixedPoint num den places
      | 'e' => scientific letter num den places
      | _ => general letter num den places (v.flags.contains '#')
    v.pad true (v.sign x.isNegative ++ text)

/-- The text of an integer. -/
def Conversion.integer (v : Conversion) (n : Int) : Raw :=
  let magnitude (base : Nat) (n : Nat) : Raw :=
    if v.precision = some 0 ∧ n = 0 then [] else digitsIn base n (v.precision.getD 1)
  let unsigned := (n % Int.ofNat (Number.twoTo 64)).toNat
  let zeros := v.precision.isNone
  match v.kind with
  | 'o' => v.pad zeros ((if v.flags.contains '#' then ['0'] else []) ++ magnitude 8 unsigned)
  | 'x' => v.pad zeros ((if v.flags.contains '#' then ['0', 'x'] else []) ++ magnitude 16 unsigned)
  | 'X' =>
    v.pad zeros ((if v.flags.contains '#' then ['0', 'X'] else [])
      ++ (magnitude 16 unsigned).map Char.toUpper)
  | 'u' => v.pad zeros (magnitude 10 unsigned)
  | _ => v.pad zeros (v.sign (n < 0) ++ magnitude 10 n.natAbs)

/-- What `printf` has done so far. -/
structure Printing where
  args : List Raw
  output : Raw := []
  messages : List Raw := []
  consumed : Bool := false
  stop : Bool := false
  status : Nat := 0

/-- The next argument, if there is one. -/
def Printing.next (p : Printing) : Option Raw × Printing :=
  match p.args with
  | [] => (none, p)
  | a :: rest => (some a, { p with args := rest, consumed := true })

/-- The printing with more text. -/
def Printing.add (p : Printing) (r : Raw) : Printing :=
  { p with output := p.output ++ r }

/-- The printing with a message. -/
def Printing.fail (p : Printing) (message : Raw) (status : Nat) : Printing :=
  { p with messages := p.messages ++ [message], status }

/-- The wording of an argument that is not a number as a whole. -/
def argumentMessage? (d : Dialect) : ArgumentState → Option String
  | .whole => none
  | .partly =>
    some (if d = .program then "value not completely converted" else "not completely converted")
  | .none => some (if d = .program then "expected a numeric value" else "expected numeric value")
  | .outOfRange => some "Numerical result out of range"

/-- The printing with a complaint about a numeric argument. -/
def Printing.check (d : Dialect) (arg : Raw) (state : ArgumentState) (p : Printing) : Printing :=
  match argumentMessage? d state with
  | none => p
  | some message =>
    let name := if d = .program then quoteRaw arg else arg
    p.fail (name ++ Raw.ofString (": " ++ message)) 1

/-- A width or precision: a numeral, or a star for the next argument. -/
def countOf (r : Raw) (p : Printing) : Option Int × Raw × Printing :=
  match r with
  | '*' :: rest =>
    let (arg, p) := p.next
    (some (integerArgument (arg.getD [])).1, rest, p)
  | _ =>
    let digits := r.takeWhile Char.isDigit
    (if digits = [] then none else some (baseValue 10 digits), r.drop digits.length, p)

/-- The printing after a conversion that is not known, which ends it. -/
def Printing.reject (d : Dialect) (spelling : Raw) (p : Printing) : Printing :=
  match d with
  | .program =>
    { p.fail (spelling ++ Raw.ofString ": invalid conversion specification") 1 with stop := true }
  | .shell =>
    let message :=
      if (spelling.getLast?.map Char.isAlphanum).getD false || spelling.length > 1 then
        spelling ++ Raw.ofString ": invalid directive"
      else Raw.ofString "missing format character"
    { p.fail message 2 with stop := true }

/-- Prints one conversion; the text is given from behind the percent sign. -/
def convert (d : Dialect) (start : Raw) (p : Printing) : Raw × Printing :=
  let flags := start.takeWhile (if d = .program then "-+ 0#'" else "-+ 0#").toList.contains
  let (width, r, p) := countOf (start.drop flags.length) p
  let (precision, r, p) : Option Int × Raw × Printing :=
    match r with
    | '.' :: rest =>
      let (n, r, p) := countOf rest p
      (some (n.getD 0), r, p)
    | _ => (none, r, p)
  let flags := if (width.getD 0) < 0 then '-' :: flags else flags
  match if d = .program then r.dropWhile "lhjztqL".toList.contains else r with
  | [] => ([], p.reject d ('%' :: start))
  | kind :: rest =>
    let precision := precision.bind fun n => if n < 0 then none else some n.toNat
    let v : Conversion := ⟨flags, width.map Int.natAbs, precision, kind⟩
    let cut (text : Raw) : Raw := match v.precision with | some n => text.take n | none => text
    if kind = 's' then
      let (arg, p) := p.next
      (rest, p.add (v.pad false (cut (arg.getD []))))
    else if kind = 'b' then
      let (arg, p) := p.next
      let arg := arg.getD []
      let (text, stop) := expandEscapes d arg.length arg
      (rest, { p.add (v.pad false (cut text)) with stop })
    else if kind = 'c' then
      let (arg, p) := p.next
      (rest, p.add (v.pad false [(arg.getD []).headD '\x00']))
    else if "di".toList.contains kind then
      let (arg, p) := p.next
      let (n, state) := integerArgument (arg.getD [])
      let bound := Int.ofNat (Number.twoTo 63)
      let (n, state) := clampArgument (-bound) (bound - 1) n state
      (rest, (p.add (v.integer n)).check d (arg.getD []) state)
    else if "ouxX".toList.contains kind then
      let (arg, p) := p.next
      let (n, state) := integerArgument (arg.getD [])
      let bound := Int.ofNat (Number.twoTo 64) - 1
      let (n, state) :=
        if n < -bound then (bound, .outOfRange) else clampArgument (-bound) bound n state
      (rest, (p.add (v.integer n)).check d (arg.getD []) state)
    else if "feEgGF".toList.contains kind then
      let (arg, p) := p.next
      let (x, state) := floatArgument (arg.getD [])
      (rest, (p.add (v.float x)).check d (arg.getD []) state)
    else ([], p.reject d ('%' :: start.take (start.length - rest.length)))

/-- Prints a format once. -/
def printOnce (d : Dialect) (fuel : Nat) (r : Raw) (p : Printing) : Printing :=
  match fuel, r with
  | 0, _ | _, [] => p
  | fuel + 1, '\\' :: rest =>
    if d = .program ∧ rest.head? = some 'c' then { p with stop := true }
    else if d = .program ∧ rest.head? = some '"' then printOnce d fuel (rest.drop 1) (p.add ['"'])
    else
      let (text, rest) := escape d rest
      printOnce d fuel rest (p.add text)
  | fuel + 1, '%' :: '%' :: rest => printOnce d fuel rest (p.add ['%'])
  | fuel + 1, '%' :: rest =>
    let (rest, p) := convert d rest p
    if p.stop then p else printOnce d fuel rest p
  | fuel + 1, c :: rest => printOnce d fuel rest (p.add [c])

/-- Prints a format again as long as arguments are left and it takes some. -/
def printAll (d : Dialect) (format : Raw) : Nat → Printing → Printing
  | 0, p => p
  | fuel + 1, p =>
    let p := printOnce d format.length format { p with consumed := false }
    if p.stop || p.args = [] || !p.consumed then p else printAll d format fuel p

/-- Prints arguments as a format says; a shell prints after all messages. -/
def printFormat (d : Dialect) (c : Call) (format : Raw) (args : List Raw) : Proc Nat := do
  let p := printAll d format (args.length + 1) { args }
  if d = .program then c.say p.output
  for m in p.messages do
    c.complain m
  if d = .shell then c.say p.output
  if d = .program && !p.stop && p.args ≠ [] then
    c.complain (Raw.ofString "warning: ignoring excess arguments, starting with "
      ++ quoteRaw (p.args.headD []))
  return p.status

/-- Prints the arguments behind a format. -/
def printf (d : Dialect) (c : Call) : Proc Nat := do
  match d, c.args with
  | .program, [] | .program, [['-', '-']] => misuse c (Raw.ofString "missing operand") 1
  | .shell, [] | .shell, [['-', '-']] =>
    c.complain (Raw.ofString "usage: printf format [arg ...]")
    return 2
  | d, ['-', '-'] :: format :: args => printFormat d c format args
  | .shell, ('-' :: letter :: _) :: _ =>
    c.complain (Raw.ofString "Illegal option -" ++ [letter])
    return 2
  | d, format :: args => printFormat d c format args

end BenchSweep.Host.Tool
