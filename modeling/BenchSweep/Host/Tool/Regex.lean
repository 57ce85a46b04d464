import BenchSweep.Host.Tool.Filters

/-!
# Patterns of lines

Regular expressions in their basic and extended spelling. A match is the leftmost one, and of those
the longest.

## Main definitions

* `Regex`: the patterns.
* `Regex.read?`: the pattern that a text spells.
* `Regex.find?`: the first match in a line.
-/

namespace BenchSweep.Host.Tool

/-- A place between two characters, at most one of which is in a word. -/
inductive WordEdge where
  | start
  | finish
  | any
  | none
  deriving DecidableEq, Repr

/-- A pattern. -/
inductive Regex where
  | nothing
  | oneOf (negated : Bool) (members : List Char)
  | lineStart
  | lineEnd
  | wordEdge (kind : WordEdge)
  | group (number : Nat) (inner : Regex)
  | again (number : Nat)
  | both (first second : Regex)
  | either (first second : Regex)
  | repeated (inner : Regex) (least : Nat) (most : Option Nat)
  deriving Repr

/-- Where a match stands: the text that is left, the character in front of it, and the texts of the
groups. -/
structure MatchState where
  rest : Raw
  previous : Option Char
  groups : List (Nat × Raw)
  deriving Repr

/-- A character of a word. -/
def isWordChar (c : Char) : Bool :=
  c.isAlphanum || c = '_'

/-- Whether a match stands at an edge of a word. -/
def WordEdge.holds (kind : WordEdge) (s : MatchState) : Bool :=
  let before := (s.previous.map isWordChar).getD false
  let after := (s.rest.head?.map isWordChar).getD false
  match kind with
  | .start => !before && after
  | .finish => before && !after
  | .any => before != after
  | .none => before == after

/-- All ways to match a pattern again and again, the longest repetitions first. -/
def repeatMatch (f : MatchState → List MatchState) :
    Nat → Nat → Option Nat → MatchState → List MatchState
  | 0, _, _, s => [s]
  | fuel + 1, least, most, s =>
    let next :=
      if most = some 0 then []
      else (f s).filter fun t => least > 0 || t.rest.length < s.rest.length
    next.flatMap (repeatMatch f fuel (least - 1) (most.map (· - 1)))
      ++ if least = 0 then [s] else []

/-- The states after a character. -/
def MatchState.take (s : MatchState) (f : Char → Bool) : List MatchState :=
  match s.rest with
  | c :: rest => if f c then [{ s with rest, previous := some c }] else []
  | [] => []

/-- All ways to match a pattern. -/
def Regex.run : Regex → MatchState → List MatchState
  | nothing, s => [s]
  | oneOf negated members, s => s.take fun c => members.contains c != negated
  | lineStart, s => if s.previous.isNone then [s] else []
  | lineEnd, s => if s.rest = [] then [s] else []
  | wordEdge kind, s => if kind.holds s then [s] else []
  | group number inner, s =>
    (inner.run s).map fun t =>
      let text := s.rest.take (s.rest.length - t.rest.length)
      { t with groups := (number, text) :: t.groups.filter (·.1 ≠ number) }
  | again number, s =>
    let text := (s.groups.lookup number).getD []
    if text.isPrefixOf s.rest then
      [{ s with rest := s.rest.drop text.length, previous := text.getLast?.or s.previous }]
    else []
  | both first second, s => (first.run s).flatMap second.run
  | either first second, s => first.run s ++ second.run s
  | repeated inner least most, s =>
    repeatMatch inner.run (s.rest.length + least + 1) least most s

/-- The longest match at a state. -/
def Regex.longest (r : Regex) (s : MatchState) : Option MatchState :=
  (r.run s).foldl
    (fun best t =>
      match best with
      | none => some t
      | some b => if t.rest.length < b.rest.length then some t else some b)
    none

/-- A match in a line: what is before it, what it is, and the state after it. -/
structure Found where
  before : Raw
  text : Raw
  after : MatchState

/-- The first match in a text; the text that was skipped before it is given in reverse, and
`previous` is the character in front of it. -/
def Regex.findFrom (r : Regex) (skipped : Raw) (previous : Option Char) : Raw → Option Found
  | s@(c :: rest) =>
    match r.longest ⟨s, previous, []⟩ with
    | some t => some ⟨skipped.reverse, s.take (s.length - t.rest.length), t⟩
    | none => findFrom r (c :: skipped) (some c) rest
  | [] => (r.longest ⟨[], previous, []⟩).map fun t => ⟨skipped.reverse, [], t⟩

/-- The first match in a line. -/
def Regex.find? (r : Regex) (s : Raw) : Option Found :=
  r.findFrom [] none s

/-- A pattern that takes letters in either case. -/
def Regex.ignoringCase : Regex → Regex
  | oneOf negated members =>
    oneOf negated (members.flatMap fun c => [c, c.toLower, c.toUpper])
  | group number inner => group number inner.ignoringCase
  | both first second => both first.ignoringCase second.ignoringCase
  | either first second => either first.ignoringCase second.ignoringCase
  | repeated inner least most => repeated inner.ignoringCase least most
  | r => r

/-! ### Spelling -/

/-- The members of a bracket, from behind its opening; `first` says that a closing bracket is a
member. -/
def readBracket (fuel : Nat) (first : Bool) (r : Raw) : Option (List Char × Raw) :=
  match fuel, r with
  | 0, _ | _, [] => none
  | fuel + 1, ']' :: rest =>
    if first then (readBracket fuel false rest).map fun (m, rest) => (']' :: m, rest)
    else some ([], rest)
  | fuel + 1, '[' :: ':' :: rest =>
    let name := rest.takeWhile (· ≠ ':')
    match charClass? (String.ofList name), rest.drop name.length with
    | some members, ':' :: ']' :: rest =>
      (readBracket fuel false rest).map fun (m, rest) => (members ++ m, rest)
    | _, _ => (readBracket fuel false (':' :: rest)).map fun (m, rest) => ('[' :: m, rest)
  | fuel + 1, a :: '-' :: b :: rest =>
    if b = ']' then
      (readBracket fuel false (b :: rest)).map fun (m, rest) => (a :: '-' :: m, rest)
    else (readBracket fuel false rest).map fun (m, rest) => (charRange a b ++ m, rest)
  | fuel + 1, '\\' :: 'n' :: rest =>
    (readBracket fuel false rest).map fun (m, rest) => ('\n' :: m, rest)
  | fuel + 1, c :: rest => (readBracket fuel false rest).map fun (m, rest) => (c :: m, rest)

/-- The characters of a word. -/
def wordChars : List Char :=
  allBytes.filter isWordChar

/-- The pattern of a letter after a backslash that stands for a class or a control character. -/
def letterPattern : Char → Regex
  | 'n' => .oneOf false ['\n']
  | 't' => .oneOf false ['\t']
  | 'w' => .oneOf false wordChars
  | 'W' => .oneOf true wordChars
  | 's' => .oneOf false ['\t', '\n', '\x0b', '\x0c', '\r', ' ']
  | 'S' => .oneOf true ['\t', '\n', '\x0b', '\x0c', '\r', ' ']
  | 'b' => .wordEdge .any
  | 'B' => .wordEdge .none
  | '<' => .wordEdge .start
  | '>' => .wordEdge .finish
  | c => if c.isDigit && c ≠ '0' then .again (c.toNat - '0'.toNat) else .oneOf false [c]

/-- The bounds of a repetition, from behind its opening brace. -/
def readBounds (extended : Bool) (r : Raw) : Option ((Nat × Option Nat) × Raw) :=
  let close (r : Raw) : Option Raw :=
    match extended, r with
    | true, '\x7d' :: rest => some rest
    | false, '\\' :: '\x7d' :: rest => some rest
    | _, _ => none
  let low := r.takeWhile Char.isDigit
  match r.drop low.length with
  | ',' :: rest =>
    let high := rest.takeWhile Char.isDigit
    (close (rest.drop high.length)).map fun rest =>
      ((baseValue 10 low, if high = [] then none else some (baseValue 10 high)), rest)
  | rest =>
    if low = [] then none
    else (close rest).map fun rest => ((baseValue 10 low, some (baseValue 10 low)), rest)

/-- The repetitions after a pattern. -/
def readRepeats (extended : Bool) (fuel : Nat) (inner : Regex) (r : Raw) : Option (Regex × Raw) :=
  match fuel with
  | 0 => some (inner, r)
  | fuel + 1 =>
    match extended, r with
    | _, '*' :: rest => readRepeats extended fuel (.repeated inner 0 none) rest
    | true, '+' :: rest | false, '\\' :: '+' :: rest =>
      readRepeats extended fuel (.repeated inner 1 none) rest
    | true, '?' :: rest | false, '\\' :: '?' :: rest =>
      readRepeats extended fuel (.repeated inner 0 (some 1)) rest
    | true, '\x7b' :: rest | false, '\\' :: '\x7b' :: rest =>
      match readBounds extended rest with
      | some ((least, most), rest) => readRepeats extended fuel (.repeated inner least most) rest
      | none => none
    | _, _ => some (inner, r)

/-- What reading a pattern gives: the pattern, the number of groups so far, and the rest. -/
abbrev PatternResult := Option (Regex × Nat × Raw)

/-- Whether a text goes on with the end of a group or with an alternative. -/
def endsBranch (extended : Bool) : Raw → Bool
  | [] => true
  | ')' :: _ | '|' :: _ => extended
  | '\\' :: ')' :: _ | '\\' :: '|' :: _ => !extended
  | _ => false

/-- Reads the alternatives of a pattern, or with `branch` one of them; `first` says that nothing of
the branch has been read. -/
def readPattern (extended : Bool) (fuel : Nat) (branch first : Bool) (groups : Nat) (r : Raw) :
    PatternResult :=
  match fuel with
  | 0 => none
  | fuel + 1 =>
    if !branch then do
      let (a, groups, rest) ← readPattern extended fuel true true groups r
      match extended, rest with
      | true, '|' :: rest | false, '\\' :: '|' :: rest =>
        let (b, groups, rest) ← readPattern extended fuel false true groups rest
        return (.either a b, groups, rest)
      | _, _ => return (a, groups, rest)
    else if endsBranch extended r then some (.nothing, groups, r)
    else do
      let (atom, groups, rest) ←
        match extended, r with
        | true, '(' :: rest | false, '\\' :: '(' :: rest =>
          match readPattern extended fuel false true (groups + 1) rest with
          | some (inner, count, rest) =>
            match extended, rest with
            | true, ')' :: rest | false, '\\' :: ')' :: rest =>
              some (.group (groups + 1) inner, count, rest)
            | _, _ => none
          | none => none
        | _, '[' :: '^' :: rest =>
          (readBracket rest.length true rest).map fun (m, rest) => (.oneOf true m, groups, rest)
        | _, '[' :: rest =>
          (readBracket rest.length true rest).map fun (m, rest) => (.oneOf false m, groups, rest)
        | _, '.' :: rest => some (.oneOf true [], groups, rest)
        | _, '\\' :: c :: rest => some (letterPattern c, groups, rest)
        | true, '^' :: rest => some (.lineStart, groups, rest)
        | true, '$' :: rest => some (.lineEnd, groups, rest)
        | false, '^' :: rest =>
          some (if first then .lineStart else .oneOf false ['^'], groups, rest)
        | false, '$' :: rest =>
          some (if endsBranch false rest then .lineEnd else .oneOf false ['$'], groups, rest)
        | _, c :: rest => some (.oneOf false [c], groups, rest)
        | _, [] => none
      let (atom, rest) ←
        match atom, first, extended, rest with
        | .lineStart, _, false, '*' :: rest => some (.both .lineStart (.oneOf false ['*']), rest)
        | _, _, _, _ => readRepeats extended rest.length atom rest
      let (more, groups, rest) ← readPattern extended fuel true false groups rest
      return (match more with | .nothing => atom | _ => .both atom more, groups, rest)

/-- The pattern that a text spells, and the number of its groups. -/
def Regex.read? (extended : Bool) (r : Raw) : Option (Regex × Nat) :=
  match readPattern extended (3 * r.length + 3) false true 0 r with
  | some (p, groups, []) => some (p, groups)
  | _ => none

end BenchSweep.Host.Tool
