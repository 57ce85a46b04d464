import BenchSweep.Host.Shell.Arithmetic
import BenchSweep.Host.Shell.Glob
import BenchSweep.Host.Shell.State

/-!
# Expansion of words

Parameters, commands and expressions in a word are replaced by their values. What comes from an
expansion outside quotes is split into fields, and fields with open stars, question marks or
brackets are replaced by the paths that they match.

## Main definitions

* `expandParts`: a word as marked characters.
* `fieldsOf`: the fields of marked characters.
* `expandFields`, `expandText`, `expandPattern`: a word as fields, as a text and as a pattern.
-/

namespace BenchSweep.Host.Shell

open Session (ofProc valueOf? setVariable)

/-- Where a character of an expanded word comes from. -/
inductive Origin where
  | literal
  | quoted
  | expanded
  deriving DecidableEq, Repr

/-- A piece of an expanded word. -/
inductive Mark where
  | char (c : Char) (origin : Origin)
  /-- The border between two fields. -/
  | border
  /-- Quotes, which make a field even if nothing is in them. -/
  | quotes
  deriving DecidableEq, Repr

/-- The marks of a text. -/
def marks (origin : Origin) (r : Raw) : List Mark :=
  r.map (.char · origin)

/-- The characters between fields. -/
def separators : Session Raw := do
  return (← valueOf? (Raw.ofString "IFS")).getD [' ', '\t', '\n']

/-- The value of a parameter, none if it is not set. -/
def paramValue (name : Raw) : Session (Option Raw) := do
  let s ← get
  match name with
  | ['#'] => return some (Raw.ofNat s.params.length)
  | ['?'] => return some (Raw.ofNat s.status)
  | ['$'] => return some ownNumber
  | ['!'] => return s.background.map fun _ => backgroundNumber
  | ['-'] => return some (if s.stopsOnFailure then ['e'] else [])
  | ['0'] => return some s.name
  | ['@'] | ['*'] =>
    let separator := (← separators).take 1
    return if s.params = [] then none else some (List.intercalate separator s.params)
  | c :: _ =>
    if c.isDigit then
      match Raw.toInt? name with
      | some n => return s.params[n.toNat - 1]?
      | none => return none
    else valueOf? name
  | [] => return none

/-- The marks of all parameters, as separate fields. -/
def allParams (quoted : Bool) : Session (List Mark) := do
  let origin := if quoted then Origin.quoted else .expanded
  let fields := (← get).params.map fun r => (if quoted then [Mark.quotes] else []) ++ marks origin r
  return List.intercalate [.border] fields

/-- The text of marks: borders become blanks. -/
def textOf (ms : List Mark) : Raw :=
  ms.filterMap fun
    | .char c _ => some c
    | .border => some ' '
    | .quotes => none

/-- The characters of marks, and whether they are quoted. -/
def patternOf (ms : List Mark) : List Marked :=
  ms.filterMap fun
    | .char c origin => some (c, origin = .quoted)
    | .border => some (' ', false)
    | .quotes => none

/-- The message for a parameter that is not set. -/
def notSet (orEmpty : Bool) : Raw :=
  Raw.ofString (if orEmpty then "parameter not set or null" else "parameter not set")

/-- The output of a command without the line feeds at its end. -/
def trimLines (r : Raw) : Raw :=
  (r.reverse.dropWhile (· = '\n')).reverse

/-- Expands the parts of a word; `run` gives the output of a command. -/
def expandParts (run : Raw → Session Raw) (fuel : Nat) (parts : List Part) :
    Session (List Mark) := do
  match fuel, parts with
  | 0, _ | _, [] => return []
  | fuel + 1, part :: rest =>
    let here ←
      match part with
      | .text r quoted =>
        pure (if quoted then .quotes :: marks .quoted r else marks .literal r)
      | .command source quoted => do
        let r := trimLines (← run source)
        pure (if quoted then marks .quoted r else marks .expanded r)
      | .arithmetic source quoted => do
        let text := textOf (← expandParts run fuel source)
        let vars := (← get).vars
        match evaluate (fun name => (vars.lookup name).getD []) text with
        | .error message =>
          if (Raw.ofString "Illegal").isPrefixOf message then Session.abort message
          else
            Session.abort (Raw.ofString "arithmetic expression: " ++ message ++ Raw.ofString ": \""
              ++ text ++ ['"'])
        | .ok (n, assigned) => do
          for (name, value) in assigned.reverse do
            setVariable name value
          pure (marks (if quoted then .quoted else .expanded) (Raw.ofInt n))
      | .param name action orEmpty arg quoted => do
        let origin := if quoted then Origin.quoted else .expanded
        let value ← paramValue name
        let present := match value with
          | none => false
          | some r => !(orEmpty && r = [])
        let unset (value : Option Raw) : Session Unit := do
          if value.isNone && (← get).refusesUnset && name ≠ ['@'] && name ≠ ['*'] then
            Session.abort (name ++ Raw.ofString ": parameter not set")
        match action with
        | .plain =>
          unset value
          if name = ['@'] || (name = ['*'] && !quoted) then allParams quoted
          else pure (marks origin (value.getD []))
        | .length =>
          unset value
          let count := (← get).params.length
          let n := if name = ['@'] ∨ name = ['*'] then count else (value.getD []).length
          pure (marks origin (Raw.ofNat n))
        | .default =>
          if present then
            if name = ['@'] || (name = ['*'] && !quoted) then allParams quoted
            else pure (marks origin (value.getD []))
          else expandParts run fuel arg
        | .assign =>
          if present then pure (marks origin (value.getD []))
          else do
            let r := textOf (← expandParts run fuel arg)
            setVariable name r
            pure (marks origin r)
        | .require =>
          if present then pure (marks origin (value.getD []))
          else do
            let r := textOf (← expandParts run fuel arg)
            Session.abort (name ++ Raw.ofString ": " ++ if r = [] then notSet orEmpty else r)
        | .alternative => if present then expandParts run fuel arg else pure []
        | .trimEnd longest => do
          unset value
          let pattern := patternOf (← expandParts run fuel arg)
          pure (marks origin (trimmedEnd longest pattern (value.getD [])))
        | .trimStart longest => do
          unset value
          let pattern := patternOf (← expandParts run fuel arg)
          pure (marks origin (trimmedStart longest pattern (value.getD [])))
    return here ++ (← expandParts run fuel rest)

/-- The state of splitting: the fields so far, the latest first, the open field in reverse, and
whether a blank has just ended a field. -/
structure Splitting where
  fields : List (List Marked) := []
  current : Option (List Marked) := none
  ended : Bool := false

/-- Ends the open field, if there is one. -/
def Splitting.close (s : Splitting) : Splitting :=
  match s.current with
  | some r => { fields := r.reverse :: s.fields, current := none, ended := true }
  | none => s

/-- Adds a character to the open field. -/
def Splitting.add (s : Splitting) (m : Marked) : Splitting :=
  { s with current := some (m :: s.current.getD []), ended := false }

/-- The fields of marks. Blanks among the separators only part fields; any other separator ends one,
even an empty one. -/
def fieldsOf (separators : Raw) (ms : List Mark) : List (List Marked) :=
  let final := ms.foldl
    (fun (s : Splitting) m =>
      match m with
      | .border => { s.close with ended := false }
      | .quotes => { s with current := some (s.current.getD []), ended := false }
      | .char c .quoted => s.add (c, true)
      | .char c .literal => s.add (c, false)
      | .char c .expanded =>
        if !separators.contains c then s.add (c, false)
        else if c = ' ' ∨ c = '\t' ∨ c = '\n' then s.close
        else if s.ended then { s with ended := false }
        else
          let s := { s with current := some (s.current.getD []) }
          { s.close with ended := false })
    {}
  final.close.fields.reverse

/-- The number of parts of words, with those inside of them. -/
def expansionFuel : Nat :=
  100000

/-- A word as fields. -/
def expandFields (run : Raw → Session Raw) (w : Word) : Session (List Raw) := do
  let ms ← expandParts run expansionFuel w
  let fields := fieldsOf (← separators) ms
  let disk ← ofProc Proc.disk
  let s ← get
  return if s.keepsPatterns then fields.map (·.map Prod.fst)
    else fields.flatMap (globPaths disk s.here)

/-- Words as fields. -/
def expandAll (run : Raw → Session Raw) : List Word → Session (List Raw)
  | [] => return []
  | w :: ws => do
    let fields ← expandFields run w
    return fields ++ (← expandAll run ws)

/-- A word as a text. -/
def expandText (run : Raw → Session Raw) (w : Word) : Session Raw := do
  return textOf (← expandParts run expansionFuel w)

/-- A word as a pattern. -/
def expandPattern (run : Raw → Session Raw) (w : Word) : Session (List Marked) := do
  return patternOf (← expandParts run expansionFuel w)

end BenchSweep.Host.Shell
