import BenchSweep.Host.Tool.Regex

/-!
# Edits of lines

The commands of a line editor and their spelling. A command has up to two addresses, which say on
which lines it runs.

## Main definitions

* `Address`, `EditAction`, `Edit`: the commands.
* `EditError`: what is wrong with a script.
* `readEdits`: the commands that a text spells.
-/

namespace BenchSweep.Host.Tool

/-- Which lines a command is for. -/
inductive Address where
  | line (number : Nat)
  | last
  | pattern (regex : Regex)
  /-- From one line on, every line at a fixed distance. -/
  | every (first step : Nat)
  /-- A number of lines after the first address. -/
  | following (count : Nat)
  deriving Repr

/-- How the letters of a replacement are written. -/
inductive LetterCase where
  | asIs
  | lower
  | upper
  deriving DecidableEq, Repr

/-- A part of a replacement. -/
inductive ReplacementPart where
  | text (r : Raw)
  | group (number : Nat)
  /-- The case of what follows, or with `once` of the next letter only. -/
  | letters (how : LetterCase) (once : Bool)
  deriving Repr

/-- What a command does. -/
inductive EditAction where
  | replace (regex : Regex) (parts : List ReplacementPart) (nth : Nat) (all shown : Bool)
  | translate (source target : List Char)
  | delete
  /-- Deletes the first of several lines that are edited together. -/
  | deleteFirst
  | print
  | printFirst
  | number
  | quit (silent : Bool) (status : Nat)
  | next
  | join
  | append (text : Raw)
  | insert (text : Raw)
  | change (text : Raw)
  | hold (adds : Bool)
  | recall (adds : Bool)
  | exchange
  /-- Goes to the command of a number; with `ifReplaced` only after a replacement. -/
  | jump (ifReplaced : Bool) (label : Raw)
  | label (name : Raw)
  /-- Skips to the end of its braces where its addresses do not hold. -/
  | openBraces
  | closeBraces
  deriving Repr

/-- A command with its addresses. -/
structure Edit where
  first : Option Address := none
  second : Option Address := none
  negated : Bool := false
  action : EditAction
  deriving Repr

/-- What is wrong with a script. -/
structure EditError where
  message : Raw
  /-- How many characters are left behind the faulty place; none if it has no place. -/
  left : Option Nat
  deriving DecidableEq, Repr

/-- The steps of a reader of edits. -/
abbrev EditReading (α : Type) := Except EditError α

/-- Ends reading in front of a text. -/
def refuseEdit {α : Type} (message : String) (rest : Raw) : EditReading α :=
  .error ⟨Raw.ofString message, some rest.length⟩

/-! ### Parts of commands -/

/-- The text up to a delimiter that no backslash precedes, and the text after it. In the brackets of
a pattern the delimiter has no meaning; `bracket` says whether one is open, and is none outside
patterns. -/
def untilDelimiter (d : Char) (fuel : Nat) (bracket : Option Bool) (r : Raw) : Option (Raw × Raw) :=
  match fuel, r with
  | 0, _ | _, [] => none
  | fuel + 1, '\\' :: c :: rest =>
    let kept := if c = d then [c] else ['\\', c]
    (untilDelimiter d fuel bracket rest).map fun (t, rest) => (kept ++ t, rest)
  | fuel + 1, c :: rest =>
    if c = d && bracket ≠ some true then some ([], rest)
    else
      let bracket := bracket.map fun b => if c = '[' then true else if c = ']' then false else b
      (untilDelimiter d fuel bracket rest).map fun (t, rest) => (c :: t, rest)

/-- The part of a replacement that a character after a backslash stands for. -/
def escapedPart (c : Char) : ReplacementPart :=
  if c.isDigit then .group (c.toNat - '0'.toNat)
  else
    match c with
    | 'n' => .text ['\n']
    | 't' => .text ['\t']
    | 'U' => .letters .upper false
    | 'L' => .letters .lower false
    | 'E' => .letters .asIs false
    | 'u' => .letters .upper true
    | 'l' => .letters .lower true
    | c => .text [c]

/-- The parts of a replacement. -/
def replacementParts (r : Raw) : List ReplacementPart :=
  match r with
  | [] => []
  | '\\' :: c :: rest => escapedPart c :: replacementParts rest
  | '&' :: rest => .group 0 :: replacementParts rest
  | c :: rest => .text [c] :: replacementParts rest

/-- The greatest number of a group in a replacement. -/
def greatestGroup (parts : List ReplacementPart) : Nat :=
  (parts.map fun | .group n => n | _ => 0).foldl max 0

/-- The characters of a set of `y`. -/
def plainChars : Raw → List Char
  | '\\' :: 'n' :: rest => '\n' :: plainChars rest
  | '\\' :: 't' :: rest => '\t' :: plainChars rest
  | '\\' :: c :: rest => c :: plainChars rest
  | c :: rest => c :: plainChars rest
  | [] => []

/-- The text of a command that adds lines. -/
def addedText (r : Raw) : Raw × Raw :=
  let r := r.dropWhile fun c => c = ' ' || c = '\t'
  let r := match r with
    | '\\' :: '\n' :: rest => rest
    | '\\' :: rest => rest.dropWhile fun c => c = ' ' || c = '\t'
    | rest => rest
  (r.takeWhile (· ≠ '\n'), (r.dropWhile (· ≠ '\n')).drop 1)

/-- The name of a label. -/
def labelName (r : Raw) : Raw × Raw :=
  let r := r.dropWhile (· = ' ')
  let name := r.takeWhile fun c => c ≠ ';' && c ≠ '\n' && c ≠ '\x7d'
  (name, r.drop name.length)

/-- A pattern in front of a text, up to its delimiter; after it an `I` makes it ignore case. -/
def readLinePattern (extended : Bool) (d : Char) (r : Raw) : EditReading (Regex × Raw) :=
  match untilDelimiter d r.length (some false) r with
  | none => refuseEdit "unterminated address regex" []
  | some (p, rest) =>
    match Regex.read? extended p, rest with
    | none, rest => refuseEdit "Unmatched ( or \\(" rest
    | some (regex, _), 'I' :: rest => .ok (regex.ignoringCase, rest)
    | some (regex, _), rest => .ok (regex, rest)

/-- An address in front of a text. -/
def readAddress (extended : Bool) (r : Raw) : EditReading (Option Address × Raw) :=
  match r with
  | '$' :: rest => .ok (some .last, rest)
  | '/' :: rest =>
    (readLinePattern extended '/' rest).map fun (regex, rest) => (some (.pattern regex), rest)
  | '\\' :: d :: rest =>
    (readLinePattern extended d rest).map fun (regex, rest) => (some (.pattern regex), rest)
  | '+' :: rest =>
    let digits := rest.takeWhile Char.isDigit
    .ok (some (.following (baseValue 10 digits)), rest.drop digits.length)
  | _ =>
    let digits := r.takeWhile Char.isDigit
    if digits = [] then .ok (none, r)
    else
      match r.drop digits.length with
      | '~' :: rest =>
        let step := rest.takeWhile Char.isDigit
        .ok (some (.every (baseValue 10 digits) (baseValue 10 step)), rest.drop step.length)
      | rest => .ok (some (.line (baseValue 10 digits)), rest)

/-! ### Commands -/

/-- A replacement, from behind the letter of its command. -/
def readReplace (extended : Bool) (d : Char) (r : Raw) : EditReading (EditAction × Raw) :=
  match untilDelimiter d r.length (some false) r with
  | none => refuseEdit "unterminated `s' command" []
  | some (p, rest) =>
    match untilDelimiter d rest.length none rest with
    | none => refuseEdit "unterminated `s' command" []
    | some (q, rest) =>
      let flags := rest.takeWhile fun c => c.isDigit || "gpIi".toList.contains c
      let rest := rest.drop flags.length
      let parts := replacementParts q
      match Regex.read? extended p with
      | none => refuseEdit "Unmatched ( or \\(" rest
      | some (regex, groups) =>
        if rest.head?.any fun c => c.isAlpha || c = '/' then
          refuseEdit "unknown option to `s'" (rest.drop 1)
        else if groups < greatestGroup parts then
          .error ⟨Raw.ofString "invalid reference \\" ++ Raw.ofNat (greatestGroup parts)
            ++ Raw.ofString " on `s' command's RHS", some rest.length⟩
        else
          let ignoring := flags.contains 'I' || flags.contains 'i'
          let nth := max 1 (baseValue 10 (flags.filter Char.isDigit))
          .ok (.replace (if ignoring then regex.ignoringCase else regex) parts nth
            (flags.contains 'g') (flags.contains 'p'), rest)

/-- A translation, from behind the letter of its command. -/
def readTranslate (d : Char) (r : Raw) : EditReading (EditAction × Raw) :=
  match untilDelimiter d r.length none r with
  | none => refuseEdit "unterminated `y' command" []
  | some (p, rest) =>
    match untilDelimiter d rest.length none rest with
    | none => refuseEdit "unterminated `y' command" []
    | some (q, rest) =>
      let source := plainChars p
      let target := plainChars q
      if source.length = target.length then .ok (.translate source target, rest)
      else refuseEdit "strings for `y' command are different lengths" rest

/-- The action of a single letter. -/
def letterAction? : Char → Option EditAction
  | 'd' => some .delete
  | 'D' => some .deleteFirst
  | 'p' => some .print
  | 'P' => some .printFirst
  | '=' => some .number
  | 'n' => some .next
  | 'N' => some .join
  | 'h' => some (.hold false)
  | 'H' => some (.hold true)
  | 'g' => some (.recall false)
  | 'G' => some (.recall true)
  | 'x' => some .exchange
  | '\x7d' => some .closeBraces
  | _ => none

/-- What may stand behind a command: blanks, and then its end. -/
def readEnd (r : Raw) : EditReading Raw :=
  match r.dropWhile fun c => c = ' ' || c = '\t' with
  | [] => .ok []
  | c :: rest =>
    if c = ';' ∨ c = '\n' ∨ c = '#' ∨ c = '\x7d' then .ok (c :: rest)
    else refuseEdit "extra characters after command" rest

/-- The action in front of a text. -/
def readAction (extended : Bool) (r : Raw) : EditReading (EditAction × Raw) :=
  match r with
  | [] => refuseEdit "missing command" []
  | 's' :: d :: rest => do
    let (action, rest) ← readReplace extended d rest
    return (action, ← readEnd rest)
  | 'y' :: d :: rest => do
    let (action, rest) ← readTranslate d rest
    return (action, ← readEnd rest)
  | 'q' :: rest | 'Q' :: rest => do
    let rest := rest.dropWhile (· = ' ')
    let digits := rest.takeWhile Char.isDigit
    return (.quit (r.head? = some 'Q') (baseValue 10 digits), ← readEnd (rest.drop digits.length))
  | 'a' :: rest => let (t, rest) := addedText rest; .ok (.append t, rest)
  | 'i' :: rest => let (t, rest) := addedText rest; .ok (.insert t, rest)
  | 'c' :: rest => let (t, rest) := addedText rest; .ok (.change t, rest)
  | 'b' :: rest => let (t, rest) := labelName rest; .ok (.jump false t, rest)
  | 't' :: rest => let (t, rest) := labelName rest; .ok (.jump true t, rest)
  | ':' :: rest => let (t, rest) := labelName rest; .ok (.label t, rest)
  | '\x7b' :: rest => .ok (.openBraces, rest)
  | 's' :: rest => refuseEdit "unterminated `s' command" rest
  | 'y' :: rest => refuseEdit "unterminated `y' command" rest
  | ',' :: rest => refuseEdit "unexpected `,'" rest
  | c :: rest =>
    match letterAction? c with
    | some action => (readEnd rest).map (action, ·)
    | none =>
      .error ⟨Raw.ofString "unknown command: `" ++ [c, '\''], some rest.length⟩

/-- The second address of a command, if a comma says that there is one. -/
def readSecond (extended : Bool) (first : Option Address) (r : Raw) :
    EditReading (Option Address × Raw) :=
  match first, r with
  | some _, ',' :: rest => do
    match ← readAddress extended (rest.dropWhile (· = ' ')) with
    | (some a, rest) => return (some a, rest)
    | (none, _) => refuseEdit "unexpected `,'" rest
  | _, r => .ok (none, r)

/-- The commands that a text spells, inside a number of open braces. -/
def readEdits (extended : Bool) (fuel braces : Nat) (r : Raw) : EditReading (List Edit) :=
  let isGap (c : Char) : Bool := c = ' ' || c = '\t' || c = '\n' || c = ';'
  match fuel, r.dropWhile isGap with
  | 0, _ => .ok []
  | _, [] => if braces = 0 then .ok [] else .error ⟨Raw.ofString "unmatched `\x7b'", none⟩
  | fuel + 1, '#' :: rest => readEdits extended fuel braces (rest.dropWhile (· ≠ '\n'))
  | fuel + 1, r => do
    let (first, r) ← readAddress extended r
    let (second, r) ← readSecond extended first r
    let r := r.dropWhile (· = ' ')
    let (negated, r) := match r with
      | '!' :: rest => (true, rest.dropWhile (· = ' '))
      | r => (false, r)
    let (action, rest) ← readAction extended r
    let braces ←
      match action with
      | .openBraces => pure (braces + 1)
      | .closeBraces =>
        if braces = 0 then refuseEdit "unexpected `\x7d'" (r.drop 1) else pure (braces - 1)
      | _ => pure braces
    return { first, second, negated, action } :: (← readEdits extended fuel braces rest)

end BenchSweep.Host.Tool
