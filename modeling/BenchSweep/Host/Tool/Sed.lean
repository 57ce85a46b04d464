import BenchSweep.Host.Tool.Edit

/-!
# The line editor `sed`

A script of commands is run on every line.

## Main definitions

* `Editor`: the state of the editor.
* `Editor.run`: runs a script on all lines.
* `sed`: the tool.
-/

namespace BenchSweep.Host.Tool

/-- The state of the editor. -/
structure Editor where
  /-- The lines that are still to come. -/
  coming : List Raw
  number : Nat := 0
  space : Raw := []
  held : Raw := []
  replaced : Bool := false
  output : List Raw := []
  /-- Texts that follow the present line. -/
  appended : List Raw := []
  /-- The open ranges: the number of the command, and the line at which its range ends. -/
  ranges : List (Nat × Option Nat) := []
  status : Nat := 0

/-- Whether an address holds for the present line. -/
def Editor.holds (e : Editor) : Address → Bool
  | .line n => e.number = n
  | .last => e.coming = []
  | .pattern regex => (regex.find? e.space).isSome
  | .every first step =>
    if step = 0 then e.number = first else first ≤ e.number && (e.number - first) % step = 0
  | .following _ => false

/-- Whether a command is for the present line, and the editor with the ranges up to date. -/
def Editor.selects (e : Editor) (index : Nat) (edit : Edit) : Bool × Editor :=
  match edit.first, edit.second with
  | none, _ => (true, e)
  | some a, none => (e.holds a, e)
  | some a, some b =>
    let close (e : Editor) : Editor := { e with ranges := e.ranges.filter (·.1 ≠ index) }
    match e.ranges.lookup index with
    | some (some end_) => if end_ ≤ e.number then (true, close e) else (true, e)
    | some none => if e.holds b then (true, close e) else (true, e)
    | none =>
      if e.number = 1 && (match a, b with | .line 0, .pattern _ => true | _, _ => false) then
        if e.holds b then (true, e) else (true, { e with ranges := (index, none) :: e.ranges })
      else if e.holds a then
        match b with
        | .line n =>
          if n ≤ e.number then (true, e)
          else (true, { e with ranges := (index, some n) :: e.ranges })
        | .following n =>
          if n = 0 then (true, e)
          else (true, { e with ranges := (index, some (e.number + n)) :: e.ranges })
        | _ => (true, { e with ranges := (index, none) :: e.ranges })
      else (false, e)

/-- A text in a letter case. -/
def LetterCase.apply : LetterCase → Raw → Raw
  | .asIs, r => r
  | .lower, r => r.map Char.toLower
  | .upper, r => r.map Char.toUpper

/-- A text in a letter case, with another one for its first character. -/
def casedText (how : LetterCase) (once : Option LetterCase) (r : Raw) : Raw :=
  match once, r with
  | some first, c :: rest => first.apply [c] ++ how.apply rest
  | _, r => how.apply r

/-- The text that takes the place of a match, in the present letter case. -/
def replacementText (f : Found) (how : LetterCase) (once : Option LetterCase) :
    List ReplacementPart → Raw
  | [] => []
  | .letters how' false :: rest => replacementText f how' none rest
  | .letters how' true :: rest => replacementText f how (some how') rest
  | .text r :: rest => casedText how once r ++ replacementText f how none rest
  | .group n :: rest =>
    let r := if n = 0 then f.text else (f.after.groups.lookup n).getD []
    casedText how once r ++ replacementText f how (if r = [] then once else none) rest

/-- A line with matches replaced, from the `nth` on, and whether there was one. An empty match does
not count where another match has just ended. -/
def replaceIn (regex : Regex) (parts : List ReplacementPart) (all : Bool) :
    Nat → Nat → Bool → Option Char → Raw → Raw × Bool
  | 0, _, _, _, s => (s, false)
  | fuel + 1, nth, afterMatch, previous, s =>
    match regex.findFrom [] previous s with
    | none => (s, false)
    | some f =>
      let skips := f.text = [] && f.before = [] && afterMatch
      let replaces := !skips && nth ≤ 1
      let here := if replaces then replacementText f .asIs none parts else f.text
      if replaces && !all then (f.before ++ here ++ f.after.rest, true)
      else
        let step := if f.text = [] then f.after.rest.take 1 else []
        if f.text = [] && step = [] then (f.before ++ here, replaces)
        else
          let passed := f.before ++ f.text ++ step
          let (more, again) := replaceIn regex parts all fuel (if skips then nth else nth - 1)
            (f.text ≠ []) (passed.getLast?.or previous) (f.after.rest.drop step.length)
          (f.before ++ here ++ step ++ more, replaces || again)

/-- What comes after a command. -/
inductive EditFlow where
  | proceed
  | goto (label : Raw)
  | skipBraces
  | endCycle (shown : Bool)
  | restart
  | quit (shown : Bool)

/-- Adds a line to the output. -/
def Editor.emit (e : Editor) (r : Raw) : Editor :=
  { e with output := r :: e.output }

/-- Adds the texts that follow the present line. -/
def Editor.flush (e : Editor) : Editor :=
  { e with output := e.appended ++ e.output, appended := [] }

/-- Takes the next line, which replaces the present one or is added to it. What was replaced before
does not matter any more. -/
def Editor.advance (e : Editor) (adds : Bool) : Editor :=
  match e.coming with
  | [] => e
  | line :: coming =>
    { e with
      coming
      number := e.number + 1
      replaced := false
      space := if adds then e.space ++ '\n' :: line else line }

/-- Runs a command on the present line. -/
def Editor.act (quiet : Bool) (e : Editor) (selected : Bool) : EditAction → Editor × EditFlow
  | .closeBraces | .label _ => (e, .proceed)
  | .openBraces => (e, if selected then .proceed else .skipBraces)
  | action =>
    if !selected then (e, .proceed)
    else
      match action with
      | .replace regex parts nth all shown =>
        let (space, replaced) :=
          replaceIn regex parts all (e.space.length + 2) nth false none e.space
        let e := if replaced then { e with space, replaced := true } else e
        (if replaced && shown then e.emit e.space else e, .proceed)
      | .translate source target =>
        ({ e with space := e.space.map (translateChar source target) }, .proceed)
      | .delete => (e, .endCycle false)
      | .deleteFirst =>
        match e.space.dropWhile (· ≠ '\n') with
        | _ :: rest => ({ e.flush with space := rest }, .restart)
        | [] => (e, .endCycle false)
      | .print => (e.emit e.space, .proceed)
      | .printFirst => (e.emit (e.space.takeWhile (· ≠ '\n')), .proceed)
      | .number => (e.emit (Raw.ofNat e.number), .proceed)
      | .quit silent status => ({ e with status }, .quit (!silent))
      | .next =>
        if e.coming = [] then (e, .quit true)
        else
          let e := if quiet then e else e.emit e.space
          (e.flush.advance false, .proceed)
      | .join => if e.coming = [] then (e, .quit true) else (e.flush.advance true, .proceed)
      | .append text => ({ e with appended := text :: e.appended }, .proceed)
      | .insert text => (e.emit text, .proceed)
      | .change text => (e.emit text, .endCycle false)
      | .hold adds =>
        ({ e with held := if adds then e.held ++ '\n' :: e.space else e.space }, .proceed)
      | .recall adds =>
        ({ e with space := if adds then e.space ++ '\n' :: e.held else e.held }, .proceed)
      | .exchange => ({ e with space := e.held, held := e.space }, .proceed)
      | .jump ifReplaced label =>
        if ifReplaced && !e.replaced then (e, .proceed)
        else ({ e with replaced := if ifReplaced then false else e.replaced },
          if label = [] then .endCycle true else .goto label)
      | _ => (e, .proceed)

/-- The commands behind the end of the present braces. -/
def skipBraces : Nat → List (Nat × Edit) → List (Nat × Edit)
  | _, [] => []
  | depth, (i, edit) :: rest =>
    match edit.action with
    | .openBraces => skipBraces (depth + 1) rest
    | .closeBraces => if depth = 0 then rest else skipBraces (depth - 1) rest
    | _ => let _ := i; skipBraces depth rest

/-- Runs commands on the present line: the editor after them, whether the line is shown, and whether
the editor goes on. -/
def Editor.cycle (quiet : Bool) (all : List (Nat × Edit)) :
    Nat → Editor → List (Nat × Edit) → Editor × Bool × Bool
  | 0, e, _ | _, e, [] => (e, true, true)
  | fuel + 1, e, (i, edit) :: rest =>
    let (selected, e) := e.selects i edit
    match e.act quiet (selected != edit.negated) edit.action with
    | (e, .proceed) => e.cycle quiet all fuel rest
    | (e, .skipBraces) => e.cycle quiet all fuel (skipBraces 0 rest)
    | (e, .goto label) =>
      let target := all.dropWhile fun (_, edit) =>
        match edit.action with | .label name => name ≠ label | _ => true
      e.cycle quiet all fuel target
    | (e, .endCycle shown) => (e, shown, true)
    | (e, .restart) => e.cycle quiet all fuel all
    | (e, .quit shown) => (e, shown, false)

/-- Runs a script on all lines. -/
def Editor.run (quiet : Bool) (all : List (Nat × Edit)) : Nat → Editor → Editor
  | 0, e => e
  | fuel + 1, e =>
    if e.coming = [] then e
    else
      let (e, shown, goesOn) := (e.advance false).cycle quiet all 10000 all
      let e := (if shown && !quiet then e.emit e.space else e).flush
      if goesOn then e.run quiet all fuel else e

/-- The text that a script makes of a text whose lines end in a character, and the status. -/
def edited (quiet : Bool) (terminator : Char) (edits : List Edit) (r : Raw) : Raw × Nat :=
  let (lines, isOpen) := Raw.splitLines r terminator
  let all := edits.zipIdx.map fun (edit, i) => (i, edit)
  let e := Editor.run quiet all (lines.length + 1) { coming := lines }
  let text := Raw.ofLines e.output.reverse terminator
  (if isOpen && e.coming = [] then text.dropLast else text, e.status)

/-! ### The tool -/

/-- The characters of bytes, if they are well formed. -/
def wideText? (r : Raw) : Option Raw :=
  Text.decode? (Raw.toBytes r)

/-- What `sed` is asked to do. -/
structure SedSpec where
  quiet : Bool
  extended : Bool
  terminator : Char
  script : Raw

/-- The text that `sed` makes of a text, and the status. Where script and text are well formed, they
are taken as characters and not as bytes. -/
def SedSpec.apply (s : SedSpec) (r : Raw) : Except EditError (Raw × Nat) :=
  let run (script r : Raw) : Except EditError (Raw × Nat) := do
    return edited s.quiet s.terminator (← readEdits s.extended (script.length + 1) 0 script) r
  match wideText? s.script, wideText? r with
  | some script, some wide =>
    (run script wide).map fun (text, status) => (Raw.ofString (String.ofList text), status)
  | _, _ => run s.script r

/-- The message for a faulty script. -/
def SedSpec.errorText (s : SedSpec) (e : EditError) : Raw :=
  let length := ((wideText? s.script).getD s.script).length
  let place := match e.left with
    | some left => length - left
    | none => 0
  Raw.ofString "-e expression #1, char " ++ Raw.ofNat place ++ Raw.ofString ": " ++ e.message

/-- The files of `sed` that can be read, and the greatest status of those that cannot. -/
def readableSources (c : Call) (inPlace : Bool) :
    List Raw → Proc (List (Raw × Raw) × Nat)
  | [] => return ([], 0)
  | path :: paths => do
    match ← c.readSource path with
    | .ok text =>
      let (texts, status) ← readableSources c inPlace paths
      return ((path, text) :: texts, status)
    | .error e =>
      if e = .isDirectory then
        if inPlace then
          c.complain (Raw.ofString "couldn't edit " ++ path ++ Raw.ofString ": not a regular file")
        else c.complainOf (Raw.ofString "read error on " ++ path) e
      else c.complainOf (Raw.ofString "can't read " ++ path) e
      let (texts, status) ← readableSources c inPlace paths
      return (texts, max (if e = .isDirectory then 4 else 2) status)

/-- Texts as one text; a text without a line feed at its end gets one if another text follows. -/
def joinTexts : List Raw → Raw
  | [] => []
  | [r] => r
  | r :: rest =>
    let gap := if r ≠ [] && r.getLast? ≠ some '\n' then ['\n'] else []
    r ++ gap ++ joinTexts rest

/-- Edits a file in its place, with a copy under another name if there is a suffix. -/
def editInPlace (c : Call) (path text suffix before : Raw) : Proc Unit := do
  let store (path text : Raw) : Proc Unit := do
    let disk ← Proc.disk
    match disk.resolve c.here (Raw.toText path) with
    | .ok l => Proc.setDisk (disk.put l (.file (Raw.toBytes text)))
    | .error _ => pure ()
  if suffix ≠ [] then store (path ++ suffix) before
  store path text

/-- The script of `sed` and its operands: the values of its options, or else the first operand. -/
def sedScript (c : Call) (flags : List Flag) (operands : List Raw) :
    Proc (Except (Raw × SystemError) (Raw × List Raw)) := do
  let mut scripts : List Raw := []
  for f in flags do
    if f.letter = 'e' then scripts := scripts ++ [f.value]
    else if f.letter = 'f' then
      match ← c.readSource f.value with
      | .ok text => scripts := scripts ++ [text]
      | .error e => return .error (f.value, e)
  if scripts = [] then return .ok (operands.headD [], operands.drop 1)
  else return .ok (List.intercalate ['\n'] scripts, operands)

/-- Edits lines. -/
def sed (c : Call) : Proc Nat := do
  let set : FlagSet := {
    plain := "nErsuz".toList
    valued := ['e', 'f']
    optional := ['i']
    long := [("quiet", 'n'), ("silent", 'n'), ("expression", 'e'), ("file", 'f'),
      ("regexp-extended", 'E'), ("in-place", 'i'), ("separate", 's'), ("null-data", 'z')] }
  match set.read c.args with
  | .error e => misuse c e.message 1
  | .ok (flags, operands) =>
    match ← sedScript c flags operands with
    | .error (path, e) =>
      c.complainOf (Raw.ofString "couldn't open file " ++ path) e
      return 1
    | .ok (script, operands) =>
      if script = [] && operands = [] && c.args.all (·.head? = some '-') then
        Proc.write c.errors (Raw.ofString
          "Usage: sed [OPTION]... \x7bscript-only-if-no-other-script\x7d [input-file]...\n")
        return 1
      let spec : SedSpec := {
        quiet := hasFlag flags 'n'
        extended := hasFlag flags 'E' || hasFlag flags 'r'
        terminator := if hasFlag flags 'z' then '\x00' else '\n'
        script }
      match spec.apply [] with
      | .error e =>
        c.complain (spec.errorText e)
        return 1
      | .ok _ =>
        let inPlace := hasFlag flags 'i'
        let suffix := ((flags.find? (·.letter = 'i')).map Flag.value).getD []
        let (texts, status) ← readableSources c inPlace (sources operands)
        let parts :=
          if inPlace || hasFlag flags 's' then texts else [([], joinTexts (texts.map Prod.snd))]
        let mut status := status
        for (path, text) in parts do
          match spec.apply text with
          | .error _ => pure ()
          | .ok (result, own) =>
            if inPlace then editInPlace c path result suffix text else c.say result
            if status = 0 then status := own
        return status

end BenchSweep.Host.Tool
