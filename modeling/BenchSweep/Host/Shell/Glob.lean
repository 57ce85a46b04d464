import BenchSweep.Host.Tool.Regex

/-!
# Patterns of the shell

Patterns with stars, question marks and brackets, in case distinctions and file names. Characters
that are quoted stand for themselves.

## Main definitions

* `GlobItem`, `globItems`: the items of a pattern.
* `globMatches`: whether a text matches.
* `globPaths`: the paths that match.
-/

namespace BenchSweep.Host.Shell

open Tool (readBracket)

/-- A character, and whether it is quoted. -/
abbrev Marked := Char × Bool

/-- An item of a pattern. -/
inductive GlobItem where
  | exactly (c : Char)
  | one
  | many
  | member (negated : Bool) (members : List Char)
  deriving DecidableEq, Repr

/-- Whether a character has a meaning in a pattern. -/
def isGlob (m : Marked) : Bool :=
  !m.2 && (m.1 = '*' || m.1 = '?' || m.1 = '[')

/-- The items of a pattern. -/
def globItems (fuel : Nat) (r : List Marked) : List GlobItem :=
  match fuel, r with
  | 0, _ | _, [] => []
  | fuel + 1, (c, quoted) :: rest =>
    if quoted then .exactly c :: globItems fuel rest
    else if c = '*' then .many :: globItems fuel rest
    else if c = '?' then .one :: globItems fuel rest
    else if c = '[' then
      let (negated, inner) :=
        match rest with
        | ('!', false) :: rest | ('^', false) :: rest => (true, rest)
        | rest => (false, rest)
      match readBracket inner.length true (inner.map Prod.fst) with
      | some (members, after) =>
        .member negated members :: globItems fuel (inner.drop (inner.length - after.length))
      | none => .exactly c :: globItems fuel rest
    else .exactly c :: globItems fuel rest

/-- Whether a text matches a pattern. -/
def globMatches : List GlobItem → Raw → Bool
  | [], r => r = []
  | .exactly c :: items, r => r.head? = some c && globMatches items (r.drop 1)
  | .one :: items, r => r ≠ [] && globMatches items (r.drop 1)
  | .member negated members :: items, r =>
    match r with
    | [] => false
    | c :: rest => (members.contains c != negated) && globMatches items rest
  | .many :: items, r => (List.range (r.length + 1)).any fun n => globMatches items (r.drop n)

/-- Whether a text matches a pattern. -/
def matchesPattern (pattern : List Marked) (r : Raw) : Bool :=
  globMatches (globItems pattern.length pattern) r

/-- The pieces of a pattern between its slashes. -/
def patternPieces (r : List Marked) : List (List Marked) :=
  let (current, pieces) := r.foldl
    (fun (current, pieces) m =>
      if m.1 = '/' then ([], current.reverse :: pieces) else (m :: current, pieces))
    (([], []) : List Marked × List (List Marked))
  (current.reverse :: pieces).reverse

/-- The paths that match the pieces of a pattern, behind a path that is already fixed. -/
def globFrom (d : Disk) (here : Location) : Raw → List (List Marked) → List Raw
  | path, [] => [path]
  | path, piece :: rest =>
    let join (name : Raw) : Raw :=
      if path = [] then name
      else if path.getLast? = some '/' then path ++ name
      else path ++ '/' :: name
    if piece.any isGlob then
      let directory := if path = [] then Raw.ofString "." else path
      match d.find here (Raw.toText directory) with
      | .ok (l, .directory) =>
        let names := (d.names l).map Raw.ofString
        let hidden := match piece with | ('.', _) :: _ => true | _ => false
        let found := names.filter fun n =>
          (hidden || n.head? ≠ some '.') && matchesPattern piece n
        (found.mergeSort Raw.isLe).flatMap fun n => globFrom d here (join n) rest
      | _ => []
    else
      let next := if piece = [] && path = [] then ['/'] else join (piece.map Prod.fst)
      if rest = [] && !(d.exists? here (Raw.toText next)) then []
      else globFrom d here next rest

/-- The paths that match a pattern; the pattern itself if there are none. -/
def globPaths (d : Disk) (here : Location) (pattern : List Marked) : List Raw :=
  let literal := pattern.map Prod.fst
  if pattern.any isGlob then
    match globFrom d here [] (patternPieces pattern) with
    | [] => [literal]
    | paths => paths
  else [literal]

/-- A text without its shortest or longest end that matches a pattern. -/
def trimmedEnd (longest : Bool) (pattern : List Marked) (r : Raw) : Raw :=
  let cuts := List.range (r.length + 1)
  let cuts := if longest then cuts else cuts.reverse
  match cuts.find? fun n => matchesPattern pattern (r.drop n) with
  | some n => r.take n
  | none => r

/-- A text without its shortest or longest beginning that matches a pattern. -/
def trimmedStart (longest : Bool) (pattern : List Marked) (r : Raw) : Raw :=
  let cuts := List.range (r.length + 1)
  let cuts := if longest then cuts.reverse else cuts
  match cuts.find? fun n => matchesPattern pattern (r.take n) with
  | some n => r.drop n
  | none => r

end BenchSweep.Host.Shell
