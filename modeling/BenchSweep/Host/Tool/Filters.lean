import BenchSweep.Host.Tool.Options
import BenchSweep.Host.Tool.Print

/-!
# Filters

Tools that copy their input in part or in another form: `cat`, `head`, `tr` and `wc`.

## Main definitions

* `cat`, `head`, `tr`, `wc`: the tools.
-/

namespace BenchSweep.Host.Tool

/-- The paths that a filter reads: standard input if there are none. -/
def sources (operands : List Raw) : List Raw :=
  if operands = [] then [['-']] else operands

/-! ### `cat` -/

/-- How `cat` shows its input. -/
structure CatStyle where
  /-- Numbers in front of lines. -/
  numbers : Bool := false
  /-- Only lines that are not empty have numbers. -/
  skipsEmpty : Bool := false
  /-- Of several empty lines in a row only the first is shown. -/
  squeezes : Bool := false
  /-- A dollar sign at the end of each line. -/
  marksEnds : Bool := false
  marksTabs : Bool := false
  /-- Signs for characters that cannot be seen. -/
  marksHidden : Bool := false
  deriving DecidableEq, Repr

/-- Where `cat` stands between two characters: the number of the line, whether it has just begun,
and how many empty lines are in front of it. -/
structure CatState where
  line : Nat := 0
  atStart : Bool := true
  empties : Nat := 0

/-- The style that options ask for. -/
def CatStyle.ofFlags (flags : List Flag) : CatStyle :=
  let any (letters : String) : Bool := letters.toList.any (hasFlag flags)
  { numbers := any "nb"
    skipsEmpty := any "b"
    squeezes := any "s"
    marksEnds := any "AeE"
    marksTabs := any "AtT"
    marksHidden := any "Aetv" }

/-- A character with signs for what cannot be seen. -/
def CatStyle.glyph (s : CatStyle) (c : Char) : Raw :=
  let caret (n : Nat) : Raw :=
    if n < 0x20 then ['^', Char.ofNat (n + 0x40)]
    else if n = 0x7F then ['^', '?']
    else [Char.ofNat n]
  if c = '\t' then if s.marksTabs then ['^', 'I'] else [c]
  else if !s.marksHidden then [c]
  else if c.toNat < 0x80 then caret c.toNat
  else 'M' :: '-' :: caret (c.toNat - 0x80)

/-- The number in front of a line. -/
def lineNumber (n : Nat) : Raw :=
  let digits := Raw.ofNat n
  List.replicate (6 - digits.length) ' ' ++ digits ++ ['\t']

/-- What is shown of a character. -/
def CatStyle.step (s : CatStyle) (t : CatState) (c : Char) : Raw × CatState :=
  let isEmpty := t.atStart && c = '\n'
  if s.squeezes && isEmpty && 1 ≤ t.empties then ([], t)
  else
    let begins := t.atStart && s.numbers && !(s.skipsEmpty && isEmpty)
    let line := if begins then t.line + 1 else t.line
    let number := if begins then lineNumber line else []
    let empties := if isEmpty then t.empties + 1 else 0
    let shown := if c = '\n' then (if s.marksEnds then ['$', '\n'] else ['\n']) else s.glyph c
    (number ++ shown, { line, atStart := c = '\n', empties })

/-- What is shown of a text. -/
def CatStyle.apply (s : CatStyle) (t : CatState) (r : Raw) : Raw × CatState :=
  if s = {} then (r, t)
  else
    let (pieces, t) := r.foldl
      (fun (pieces, t) c => let (piece, t) := s.step t c; (piece :: pieces, t))
      (([], t) : List Raw × CatState)
    (pieces.reverse.flatten, t)

/-- Copies files. -/
def cat (c : Call) : Proc Nat := do
  let set : FlagSet := {
    plain := "nbuAevtTEs".toList
    long := [("number", 'n'), ("number-nonblank", 'b'), ("squeeze-blank", 's'), ("show-all", 'A'),
      ("show-ends", 'E'), ("show-tabs", 'T'), ("show-nonprinting", 'v')] }
  match set.read c.args with
  | .error e => misuse c e.message 1
  | .ok (flags, operands) =>
    let mut status := 0
    let mut state : CatState := {}
    for path in sources operands do
      match ← c.readSource path with
      | .error e =>
        c.complainOf (pathText path) e
        status := 1
      | .ok text =>
        let (shown, next) := (CatStyle.ofFlags flags).apply state text
        state := next
        c.say shown
    return status

/-! ### `head` -/

/-- The first lines of a text. -/
def firstLines : Nat → Raw → Raw
  | 0, _ => []
  | n + 1, r =>
    match r.dropWhile (· ≠ '\n') with
    | [] => r
    | _ :: rest => r.takeWhile (· ≠ '\n') ++ '\n' :: firstLines n rest

/-- The number of lines of a text; the last one counts even without a line feed. -/
def lineTotal (r : Raw) : Nat :=
  (Raw.splitLines r).1.length

/-- What `head` shows: lines or bytes, and how many; a negative number counts from the end. -/
structure HeadSpec where
  bytes : Bool := false
  amount : Nat := 10
  fromEnd : Bool := false

/-- The part of a text that is shown. -/
def HeadSpec.apply (s : HeadSpec) (r : Raw) : Raw :=
  match s.bytes, s.fromEnd with
  | true, false => r.take s.amount
  | true, true => r.take (r.length - s.amount)
  | false, false => firstLines s.amount r
  | false, true => firstLines (lineTotal r - s.amount) r

/-- The amount that an option of `head` asks for. -/
def headAmount (bytes : Bool) (r : Raw) : Option HeadSpec :=
  let (fromEnd, r) := match r with | '-' :: rest => (true, rest) | _ => (false, r)
  let r := match r with | '+' :: rest => rest | _ => r
  let digits := r.takeWhile Char.isDigit
  let unit : Option Nat :=
    match r.drop digits.length with
    | [] => some 1
    | ['b'] => some 512
    | ['k'] | ['K'] => some 1024
    | ['M'] => some (1024 * 1024)
    | _ => none
  if digits = [] then none
  else unit.map fun u => { bytes, amount := baseValue 10 digits * u, fromEnd }

/-- Replaces an old option such as `-5` by the option it stands for. -/
def headArgs : List Raw → List Raw
  | ('-' :: d :: rest) :: args =>
    if d.isDigit && rest.all Char.isDigit then ['-', 'n'] :: (d :: rest) :: args
    else ('-' :: d :: rest) :: args
  | args => args

/-- The part of a file that `head` shows. -/
def headOf (c : Call) (s : HeadSpec) (path : Raw) : Proc (Except SystemError Raw) := do
  let endless ←
    if path = ['-'] then pure (match ← Proc.stream c.input with | .zeros => true | _ => false)
    else
      match (← Proc.disk).find c.here (Raw.toText path) with
      | .ok (_, .zeros) => pure true
      | _ => pure false
  if endless && s.bytes && !s.fromEnd then return .ok (List.replicate s.amount '\x00')
  else if path = ['-'] then
    let part := s.apply (← Proc.unread c.input)
    Proc.skip c.input part.length
    return .ok part
  else return (← c.readFile path).map s.apply

/-- Shows the beginnings of files. -/
def head (c : Call) : Proc Nat := do
  let set : FlagSet := {
    plain := "qvz".toList
    valued := ['n', 'c']
    long := [("lines", 'n'), ("bytes", 'c'), ("quiet", 'q'), ("verbose", 'v')] }
  match set.read (headArgs c.args) with
  | .error e => misuse c e.message 1
  | .ok (flags, operands) =>
    let mut spec : HeadSpec := {}
    for f in flags do
      if f.letter = 'n' || f.letter = 'c' then
        match headAmount (f.letter = 'c') f.value with
        | some s => spec := s
        | none =>
          c.complain (Raw.ofString
            (if f.letter = 'c' then "invalid number of bytes: " else "invalid number of lines: ")
            ++ quoteRaw f.value)
          return 1
    let titled := (operands.length > 1 || hasFlag flags 'v') && !hasFlag flags 'q'
    let mut status := 0
    let mut first := true
    for path in sources operands do
      let part ← headOf c spec path
      let isOpen := match part with | .ok _ | .error .isDirectory => true | _ => false
      if titled && isOpen then
        let name := if path = ['-'] then Raw.ofString "standard input" else path
        c.say ((if first then [] else ['\n']) ++ Raw.ofString "==> " ++ name
          ++ Raw.ofString " <==\n")
        first := false
      match part with
      | .ok text => c.say text
      | .error e =>
        status := 1
        if e = .isDirectory then
          c.complainOf (Raw.ofString "error reading " ++ apostrophes path) e
        else
          c.complainOf
            (Raw.ofString "cannot open " ++ apostrophes path ++ Raw.ofString " for reading") e
    return status

/-! ### `tr` -/

/-- The characters from one to another. -/
def charRange (a b : Char) : List Char :=
  (List.range (b.toNat + 1 - a.toNat)).map fun i => Char.ofNat (a.toNat + i)

/-- All bytes. -/
def allBytes : List Char :=
  charRange '\x00' (Char.ofNat 255)

/-- The members of a class of characters. -/
def charClass? : String → Option (List Char)
  | "alpha" => some (allBytes.filter Char.isAlpha)
  | "digit" => some (allBytes.filter Char.isDigit)
  | "alnum" => some (allBytes.filter Char.isAlphanum)
  | "upper" => some (allBytes.filter Char.isUpper)
  | "lower" => some (allBytes.filter Char.isLower)
  | "space" => some ['\t', '\n', '\x0b', '\x0c', '\r', ' ']
  | "blank" => some ['\t', ' ']
  | "punct" =>
    some (allBytes.filter fun c => 0x21 ≤ c.toNat && c.toNat ≤ 0x7e && !c.isAlphanum)
  | "print" => some (allBytes.filter fun c => 0x20 ≤ c.toNat && c.toNat ≤ 0x7e)
  | "graph" => some (allBytes.filter fun c => 0x21 ≤ c.toNat && c.toNat ≤ 0x7e)
  | "cntrl" => some (allBytes.filter fun c => c.toNat < 0x20 || c.toNat = 0x7f)
  | "xdigit" => some (allBytes.filter isHex)
  | _ => none

/-- An escaped or plain character in front of a set, and the text after it. -/
def setChar : Raw → Option (Char × Raw)
  | [] => none
  | '\\' :: c :: rest =>
    if isOctal c then some (octalEscape 3 (c :: rest))
    else
      match letterEscape? c with
      | some x => some (if c = 'e' then c else x, rest)
      | none => some (c, rest)
  | c :: rest => some (c, rest)

/-- A part of a set. -/
inductive SetPart where
  | chars (members : List Char)
  /-- A character as often as the other set needs it. -/
  | filler (c : Char)

/-- A construct in brackets in front of a set, from behind the opening bracket, and the text after
it. -/
def bracketPart (r : Raw) : Except Raw (Option (SetPart × Raw)) :=
  match r with
  | ':' :: rest =>
    let name := rest.takeWhile (· ≠ ':')
    match rest.drop name.length with
    | ':' :: ']' :: rest =>
      match charClass? (String.ofList name) with
      | some members => .ok (some (.chars members, rest))
      | none => .error (Raw.ofString "invalid character class " ++ quoteRaw name)
    | _ => .ok none
  | '=' :: c :: '=' :: ']' :: rest => .ok (some (.chars [c], rest))
  | _ =>
    match setChar r with
    | some (c, '*' :: rest) =>
      let digits := rest.takeWhile Char.isDigit
      match rest.drop digits.length with
      | ']' :: rest =>
        let n := baseValue (if digits.head? = some '0' then 8 else 10) digits
        .ok (some (if n = 0 then .filler c else .chars (List.replicate n c), rest))
      | _ => .ok none
    | _ => .ok none

/-- The parts of a set, in order. -/
def readSet (fuel : Nat) (r : Raw) : Except Raw (List SetPart) :=
  match fuel, r with
  | 0, _ | _, [] => .ok []
  | fuel + 1, r => do
    let bracket ← match r with | '[' :: rest => bracketPart rest | _ => .ok none
    match bracket with
    | some (part, rest) => return part :: (← readSet fuel rest)
    | none =>
      match setChar r with
      | none => return []
      | some (a, '-' :: rest) =>
        match setChar rest with
        | none => return [.chars [a, '-']]
        | some (b, after) =>
          if b < a then
            throw (Raw.ofString "range-endpoints of '" ++ r.take (r.length - after.length)
              ++ Raw.ofString "' are in reverse collating sequence order")
          else return .chars (charRange a b) :: (← readSet fuel after)
      | some (a, rest) => return .chars [a] :: (← readSet fuel rest)

/-- The characters of a set that is to have a number of them, if that can be. -/
def setMembers (length : Nat) (parts : List SetPart) : List Char :=
  let known := (parts.flatMap fun | .chars members => members | .filler _ => []).length
  parts.flatMap fun
    | .chars members => members
    | .filler c => List.replicate (length - known) c

/-- A text with runs of a character of the set reduced to one. -/
def squeeze (set : List Char) (r : Raw) : Raw :=
  (r.foldl
    (fun (out : Raw) c =>
      match out with
      | d :: _ => if c = d ∧ set.contains c then out else c :: out
      | [] => [c])
    []).reverse

/-- The character that stands for another one under a pair of sets. -/
def translateChar (source target : List Char) (c : Char) : Char :=
  match source.reverse.findIdx? (· = c) with
  | none => c
  | some i => target.getD (source.length - 1 - i) (target.getLastD c)

/-- What `tr` is asked to do. -/
structure TrSpec where
  deletes : Bool
  squeezes : Bool
  complements : Bool
  truncates : Bool

/-- The text that `tr` makes of a text, with one or two sets. -/
def TrSpec.apply (s : TrSpec) (first : List Char) (second : Option (List Char)) (r : Raw) : Raw :=
  match second with
  | none => if s.deletes then r.filter (!first.contains ·) else squeeze first r
  | some second =>
    if s.deletes then squeeze second (r.filter (!first.contains ·))
    else
      let first := if s.truncates then first.take second.length else first
      let table := (allBytes.map (translateChar first second)).toArray
      let r := r.map fun x => table.getD x.toNat x
      if s.squeezes then squeeze second r else r

/-- What is wrong with the number of operands of `tr`, and what is told about it. -/
def TrSpec.operandError? (s : TrSpec) (operands : List Raw) : Option (Raw × List String) :=
  let missingAfter (r : Raw) := Raw.ofString "missing operand after " ++ quoteRaw r
  let extra (r : Raw) := Raw.ofString "extra operand " ++ quoteRaw r
  match operands with
  | [] => some (Raw.ofString "missing operand", [])
  | [only] =>
    if s.deletes && s.squeezes then
      some (missingAfter only,
        ["Two strings must be given when both deleting and squeezing repeats."])
    else if s.deletes || s.squeezes then none
    else some (missingAfter only, ["Two strings must be given when translating."])
  | [_, second] =>
    if s.deletes && !s.squeezes then
      some (extra second,
        ["Only one string may be given when deleting without squeezing repeats."])
    else none
  | _ :: _ :: third :: _ => some (extra third, [])

/-- Translates, deletes or squeezes characters. -/
def tr (c : Call) : Proc Nat := do
  let set : FlagSet := {
    plain := ['d', 's', 'c', 'C', 't']
    long := [("delete", 'd'), ("squeeze-repeats", 's'), ("complement", 'c'),
      ("truncate-set1", 't')] }
  match set.read c.args with
  | .error e => misuse c e.message 1
  | .ok (flags, operands) =>
    let spec : TrSpec := {
      deletes := hasFlag flags 'd'
      squeezes := hasFlag flags 's'
      complements := hasFlag flags 'c' || hasFlag flags 'C'
      truncates := hasFlag flags 't' }
    match spec.operandError? operands with
    | some (message, more) => misuse c message 1 more
    | none =>
      match operands.mapM fun r => readSet r.length r with
      | .error message =>
        c.complain message
        return 1
      | .ok parts =>
        let first := setMembers 0 (parts.headD [])
        let first := if spec.complements then allBytes.filter (!first.contains ·) else first
        let second := parts[1]?.map (setMembers first.length)
        if second = some [] && !spec.deletes && !spec.truncates then
          c.complain (Raw.ofString "when not truncating set1, string2 must be non-empty")
          return 1
        else
          c.say (spec.apply first second (← Proc.readAll c.input))
          return 0

/-! ### `wc` -/

/-- The counts of a text: lines, words, characters, bytes, and the characters of its longest
line. -/
structure TextCounts where
  lines : Nat := 0
  words : Nat := 0
  chars : Nat := 0
  bytes : Nat := 0
  longest : Nat := 0
  deriving DecidableEq, Repr

/-- A byte that begins a character. -/
def beginsChar (c : Char) : Bool :=
  !(0x80 ≤ c.toNat && c.toNat < 0xC0)

/-- The width of a line, with tab stops at every eighth column. -/
def lineWidth (r : Raw) : Nat :=
  r.foldl
    (fun n c => if c = '\t' then (n / 8 + 1) * 8 else if beginsChar c then n + 1 else n) 0

/-- The counts of a text. -/
def TextCounts.of (r : Raw) : TextCounts where
  lines := r.count '\n'
  words := (r.foldl (fun (n, inside) c =>
    if Raw.isBlank c then (n, false) else if inside then (n, true) else (n + 1, true))
    ((0, false) : Nat × Bool)).1
  chars := r.countP beginsChar
  bytes := r.length
  longest := ((Raw.splitLines r).1.map lineWidth).foldl max 0

/-- The counts of two texts together. -/
def TextCounts.add (a b : TextCounts) : TextCounts :=
  ⟨a.lines + b.lines, a.words + b.words, a.chars + b.chars, a.bytes + b.bytes,
    max a.longest b.longest⟩

/-- The counts that options ask for, in the order in which they are shown. -/
def TextCounts.shown (t : TextCounts) (flags : List Flag) : List Nat :=
  if flags = [] then [t.lines, t.words, t.bytes]
  else
    [('l', t.lines), ('w', t.words), ('m', t.chars), ('c', t.bytes), ('L', t.longest)].filterMap
      fun (letter, n) => if hasFlag flags letter then some n else none

/-- Counts in columns, with a name after them. -/
def countLine (width : Nat) (counts : List Nat) (name : Option Raw) : Raw :=
  let column (n : Nat) : Raw :=
    let digits := Raw.ofNat n
    List.replicate (width - digits.length) ' ' ++ digits
  spaced (counts.map column) ++ (name.elim [] fun n => ' ' :: n) ++ ['\n']

/-- What is known of a source before it is read. -/
inductive SourceKind where
  | missing
  | regular (size : Nat)
  | other

/-- What is known of a source before it is read. -/
def sourceKind (c : Call) (path : Raw) : Proc SourceKind := do
  let disk ← Proc.disk
  let ofNode : Option Node → SourceKind
    | some (.file content) => .regular content.length
    | _ => .other
  if path = ['-'] then
    match ← Proc.stream c.input with
    | .reading l _ => return ofNode (disk.get? l)
    | _ => return .other
  else
    match disk.find c.here (Raw.toText path) with
    | .ok (_, node) => return ofNode (some node)
    | .error _ => return .missing

/-- The width of columns: that of the sum of all sizes, and wide where a size is not known. -/
def columnWidth (kinds : List SourceKind) : Nat :=
  let total := kinds.foldl (fun n kind => match kind with | .regular size => n + size | _ => n) 0
  let least := if kinds.any fun | .other => true | _ => false then 7 else 1
  max least (Raw.ofNat total).length

/-- Counts lines, words and bytes. -/
def wc (c : Call) : Proc Nat := do
  let set : FlagSet := {
    plain := ['l', 'w', 'm', 'c', 'L']
    long := [("lines", 'l'), ("words", 'w'), ("chars", 'm'), ("bytes", 'c'),
      ("max-line-length", 'L')] }
  match set.read c.args with
  | .error e => misuse c e.message 1
  | .ok (flags, operands) =>
    let kinds ← (sources operands).mapM (sourceKind c)
    let isSingle := (({} : TextCounts).shown flags).length = 1 && operands.length ≤ 1
    let width := if isSingle then 1 else columnWidth kinds
    let mut status := 0
    let mut total : TextCounts := {}
    for path in sources operands do
      let name := if operands = [] then none else some path
      if path = [] then
        c.complain (Raw.ofString "invalid zero-length file name")
        status := 1
      else
        match ← c.readSource path with
        | .ok text =>
          let counts := TextCounts.of text
          total := total.add counts
          c.say (countLine width (counts.shown flags) name)
        | .error e =>
          c.complainOf (pathText path) e
          if e = .isDirectory then c.say (countLine width (({} : TextCounts).shown flags) name)
          status := 1
    if operands.length > 1 then
      c.say (countLine width (total.shown flags) (some (Raw.ofString "total")))
    return status

end BenchSweep.Host.Tool
