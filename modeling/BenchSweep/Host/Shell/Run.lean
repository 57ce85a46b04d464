import BenchSweep.Command.Status
import BenchSweep.Host.Shell.Expand
import BenchSweep.Host.Tool.Condition
import BenchSweep.Host.Tool.Files
import BenchSweep.Host.Tool.Sed

/-!
# Running shell programs

Commands are run on the state of a shell. Programs that a command starts get the streams of the
shell; a shell among them is run in the same way.

Every step that may nest or repeat is counted by `fuel`. A process that uses it up does not end.

## Main definitions

* `Ended`: how a program ends.
* `tool?`: the programs of the system.
* `runTree`: runs a command.
* `runProgram`: runs a program.
-/

namespace BenchSweep.Host.Shell

open Session (ofProc valueOf? setVariable complain abort callOf streamOf)
open Tool (Dialect)

/-- How a program ends. -/
inductive Ended where
  | exited (status : Nat)
  | killed (signal : Nat)
  deriving DecidableEq, Repr

/-- A program of the system other than the shell. -/
def tool? : String → Option (Call → Proc Nat)
  | "echo" => some (Tool.echo .program)
  | "printf" => some (Tool.printf .program)
  | "sleep" => some Tool.sleep
  | "true" => some fun _ => return 0
  | "false" => some fun _ => return 1
  | "cat" => some Tool.cat
  | "head" => some Tool.head
  | "tr" => some Tool.tr
  | "wc" => some Tool.wc
  | "sed" => some Tool.sed
  | "rm" => some Tool.rm
  | "mkdir" => some Tool.mkdir
  | "touch" => some Tool.touch
  | "test" => some (Tool.test .program false)
  | "[" => some (Tool.test .program true)
  | _ => none

/-- Whether a name is that of a program of the system. -/
def isProgram (name : String) : Bool :=
  name = "sh" || (tool? name).isSome

/-- The program that a name denotes: one of the system, or one on a path. -/
def findProgram (d : Disk) (here : Location) (name : String) : Except SystemError String :=
  if name.toList.contains '/' then
    match d.find here name with
    | .error e => .error e
    | .ok (l, .program) => .ok (l.getLastD "")
    | .ok _ => .error .denied
  else if isProgram name then .ok name
  else if Disk.longestName < Disk.nameLength name then .error .nameTooLong
  else .error .noEntry

/-- The text of a location. -/
def locationText (l : Location) : Raw :=
  match l with
  | [] => ['/']
  | _ => Raw.ofString (String.join (l.map ("/" ++ ·)))

/-- The signals that end nothing when they come. -/
def isHarmless (signal : Nat) : Bool :=
  [0, 17, 18, 23, 28].contains signal

/-- The signals that stop a process. -/
def isStop (signal : Nat) : Bool :=
  [19, 20, 21, 22].contains signal

/-- The signal of a name or a number. -/
def signal? (r : Raw) : Option Nat :=
  match Raw.toInt? r with
  | some n => if 0 ≤ n ∧ n ≤ 64 then some n.toNat else none
  | none =>
    let name := "SIG" ++ String.ofList (r.map Char.toUpper)
    if name = "SIGEXIT" then some 0 else (Command.signalNames.idxOf? name).map (· + 1)

/-- What is told of a program that a signal ended. -/
def signalNote (signal : Nat) : Option String :=
  match signal with
  | 1 => some "Hangup"
  | 3 => some "Quit"
  | 4 => some "Illegal instruction"
  | 5 => some "Trace/breakpoint trap"
  | 6 => some "Aborted"
  | 7 => some "Bus error"
  | 8 => some "Floating point exception"
  | 9 => some "Killed"
  | 10 => some "User defined signal 1"
  | 11 => some "Segmentation fault"
  | 12 => some "User defined signal 2"
  | 14 => some "Alarm clock"
  | 15 => some "Terminated"
  | _ => none

/-- The commands of the shell itself. -/
def isBuiltin (name : String) : Bool :=
  [":", ".", "alias", "break", "cd", "command", "continue", "echo", "eval", "exec", "exit",
    "export", "false", "hash", "jobs", "kill", "local", "printf", "pwd", "read", "readonly",
    "return", "set", "shift", "test", "[", "trap", "true", "type", "umask", "unalias", "unset",
    "wait"].contains name

/-- The commands of the shell whose mistakes end it. -/
def isSpecialBuiltin (name : String) : Bool :=
  [":", ".", "break", "continue", "eval", "exec", "exit", "export", "readonly", "return", "set",
    "shift", "trap", "unset"].contains name

/-- Runs steps in a copy of the shell; only the streams, and a signal to the shell, come back. -/
def inCopy (body : Session Nat) : Session Nat := do
  let saved ← get
  let result ← ExceptT.lift body.run
  set saved
  match result with
  | .ok status | .error (.exited status) | .error (.returned status) => return status
  | .error (.killed signal) => throw (.killed signal)
  | .error _ => return 0

/-- Runs steps whose status is looked at. -/
def asCondition (body : Session Nat) : Session Nat := do
  let saved := (← get).isCondition
  modify fun s => { s with isCondition := true }
  let status ← body
  modify fun s => { s with isCondition := saved }
  return status

/-- Ends the shell after a failure, where that is asked for. -/
def checked (status : Nat) : Session Nat := do
  let s ← get
  modify fun s => { s with status }
  if status ≠ 0 && s.stopsOnFailure && !s.isCondition then throw (.exited status) else return status

/-! ### Redirections -/

/-- Sets the place of a stream. -/
def setStreamPlace (number : Nat) (place : Option Nat) : Session Unit :=
  modify fun s =>
    let others := s.streams.filter (·.1 ≠ number)
    { s with streams := match place with | some i => (number, i) :: others | none => others }

/-- The wording of an error of a redirection. -/
def redirectionError (creating : Bool) (path : Raw) (e : SystemError) : Raw :=
  let reason :=
    match e with
    | .noEntry => Raw.ofString (if creating then "Directory nonexistent" else "No such file")
    | e => Call.complainOf.reason e
  Raw.ofString (if creating then "cannot create " else "cannot open ") ++ path
    ++ Raw.ofString ": " ++ reason

/-- Opens a file for a redirection; none if it cannot be opened, which has been told. -/
def openFor (kind : RedirectionKind) (path : Raw) : Session (Option Stream) := do
  let disk ← ofProc Proc.disk
  let here := (← get).here
  let text := Raw.toText path
  let refuse (creating : Bool) (e : SystemError) : Session (Option Stream) := do
    complain (redirectionError creating path e)
    return none
  match kind with
  | .input =>
    match disk.find here text with
    | .ok (l, .file _) => return some (.reading l 0)
    | .ok (_, .zeros) => return some .zeros
    | .ok _ => return some .null
    | .error e => refuse false e
  | _ =>
    match disk.find here text with
    | .ok (l, .file content) =>
      if kind = .append then return some (.writing l)
      else
        if content ≠ [] then ofProc (Proc.setDisk (disk.put l (.file [])))
        return some (.writing l)
    | .ok (_, .sink) | .ok (_, .zeros) => return some .null
    | _ =>
      match disk.create here text with
      | .ok (l, disk) =>
        ofProc (Proc.setDisk disk)
        return some (.writing l)
      | .error e => refuse true e

/-- Redirects a stream; false if that is not possible, which has been told. -/
def redirect (run : Raw → Session Raw) (r : Redirection) : Session Bool := do
  match r.kind with
  | .inline =>
    let text ← expandText run r.target
    let i ← ofProc (Proc.open_ (.supply text))
    setStreamPlace r.stream (some i)
    return true
  | .duplicate =>
    let target ← expandText run r.target
    if target = ['-'] then
      setStreamPlace r.stream none
      return true
    else
      match Raw.toInt? target with
      | some n =>
        match (← get).streams.lookup n.toNat with
        | some i =>
          setStreamPlace r.stream (some i)
          return true
        | none =>
          complain (target ++ Raw.ofString ": Bad file descriptor")
          return false
      | none => abort (Raw.ofString "Syntax error: Bad fd number")
  | kind =>
    let path ← expandText run r.target
    match ← openFor kind path with
    | some s =>
      let i ← ofProc (Proc.open_ s)
      setStreamPlace r.stream (some i)
      return true
    | none => return false

/-- Redirects streams in order, up to the first that is not possible. -/
def redirectAll (run : Raw → Session Raw) : List Redirection → Session Bool
  | [] => return true
  | r :: rest => do
    if ← redirect run r then redirectAll run rest else return false

/-- Runs steps with redirected streams. -/
def withRedirections (run : Raw → Session Raw) (rs : List Redirection) (body : Session Nat) :
    Session Nat := do
  match rs with
  | [] => body
  | _ =>
    let saved := (← get).streams
    if ← redirectAll run rs then
      let result ← ExceptT.lift body.run
      modify fun s => { s with streams := saved }
      match result with
      | .ok status => return status
      | .error leave => throw leave
    else
      modify fun s => { s with streams := saved }
      return 2

/-! ### Commands of the shell -/

/-- A number that is given to a command of the shell. -/
def numberOf (name : String) (r : Raw) : Session Nat := do
  if r ≠ [] ∧ r.all Char.isDigit then return ((Raw.toInt? r).getD 0).toNat
  else abort (Raw.ofString (name ++ ": Illegal number: ") ++ r)

/-- Sets a variable from a text such as `x=1`; a name alone leaves it as it is. -/
def assignText (r : Raw) : Session Raw := do
  let name := r.takeWhile (· ≠ '=')
  match r.drop name.length with
  | '=' :: value => setVariable name value
  | _ => pure ()
  return name

/-- Switches options of the shell. -/
def switchOptions (on : Bool) (letters : Raw) : Session Unit := do
  for c in letters do
    match c with
    | 'e' => modify fun s => { s with stopsOnFailure := on }
    | 'u' => modify fun s => { s with refusesUnset := on }
    | 'x' => modify fun s => { s with showsCommands := on }
    | 'f' => modify fun s => { s with keepsPatterns := on }
    | _ => pure ()

/-- Gives a function a variable of its own. -/
def makeLocal (name : Raw) : Session Unit := do
  let old ← valueOf? name
  modify fun s =>
    { s with
      locals := s.locals.map fun known =>
        if (known.lookup name).isSome then known else (name, old) :: known }

/-- Gives the variables of a function the values back that they had before it. -/
def restoreLocals (outer : Option (List (Raw × Option Raw))) : Session Unit :=
  modify fun s =>
    let own := s.locals.getD []
    let old := own.filterMap fun (name, value) => value.map (name, ·)
    { s with vars := old ++ s.vars.filter fun v => (own.lookup v.1).isNone, locals := outer }

/-- Runs the steps of a loop. -/
def inLoop {α : Type} (body : Session α) : Session (Except Leave α) := do
  modify fun s => { s with loops := s.loops + 1 }
  let result ← ExceptT.lift body.run
  modify fun s => { s with loops := s.loops - 1 }
  return result

/-- Leaves a number of loops, as far as there are loops. -/
def leaveLoops (leave : Nat → Leave) (n : Nat) : Session Nat := do
  match min n (← get).loops with
  | 0 => return 0
  | n => throw (leave n)

/-- Shows a command before it runs. -/
def showCommand (words : List Raw) : Session Unit := do
  if (← get).showsCommands then
    ofProc (Proc.write (← streamOf 2) (['+', ' '] ++ List.intercalate [' '] words ++ ['\n']))

/-- Tells what a word is as a command. -/
def describeWord (call : Call) (word : Raw) : Session Nat := do
  let text := Raw.toText word
  let say (r : String) : Session Unit :=
    ofProc (call.say (word ++ Raw.ofString r ++ ['\n']))
  if ((← get).functions.lookup word).isSome then
    say " is a shell function"
    return 0
  else if isSpecialBuiltin text then
    say " is a special shell builtin"
    return 0
  else if isBuiltin text then
    say " is a shell builtin"
    return 0
  else
    match findProgram (← ofProc Proc.disk) call.here text with
    | .ok key =>
      say (" is " ++ if text.toList.contains '/' then text else "/usr/bin/" ++ key)
      return 0
    | .error _ =>
      say ": not found"
      return 127

/-- Sets options and parameters. -/
def setOptions : List Raw → Session Unit
  | [] => pure ()
  | ['-', '-'] :: rest => modify fun s => { s with params := rest }
  | ['-', 'o'] :: word :: rest => do
    if word = Raw.ofString "errexit" then switchOptions true ['e']
    if word = Raw.ofString "nounset" then switchOptions true ['u']
    if word = Raw.ofString "xtrace" then switchOptions true ['x']
    if word = Raw.ofString "noglob" then switchOptions true ['f']
    setOptions rest
  | ('-' :: letters) :: rest => do
    switchOptions true letters
    setOptions rest
  | ('+' :: letters) :: rest => do
    switchOptions false letters
    setOptions rest
  | words => modify fun s => { s with params := words }

/-- A line as it was read: its characters and whether they are escaped, and whether it was ended. -/
def readLine (raw : Bool) (place : Nat) (fuel : Nat) : Proc (List Marked × Bool) := do
  let text ← Proc.unread place
  let rec scan (fuel : Nat) (r : Raw) (n : Nat) (acc : List Marked) : List Marked × Nat × Bool :=
    match fuel, r with
    | 0, _ | _, [] => (acc.reverse, n, false)
    | fuel + 1, c :: rest =>
      if c = '\n' then (acc.reverse, n + 1, true)
      else if c = '\\' && !raw then
        match rest with
        | '\n' :: rest => scan fuel rest (n + 2) acc
        | d :: rest => scan fuel rest (n + 2) ((d, true) :: acc)
        | [] => (acc.reverse, n + 1, false)
      else scan fuel rest (n + 1) ((c, false) :: acc)
  let (line, n, ended) := scan (text.length + fuel) text 0 []
  Proc.skip place n
  return (line, ended)

/-- Puts the fields of a line into variables; the last one takes what is left. -/
def assignFields (separators : Raw) : List Raw → List Marked → Session Unit
  | [], _ => pure ()
  | [name], r => do
    let isGap (m : Marked) : Bool := !m.2 && separators.contains m.1 && Raw.isBlank m.1
    let r := (r.dropWhile isGap).reverse.dropWhile isGap |>.reverse
    setVariable name (r.map Prod.fst)
  | name :: names, r => do
    let isSeparator (m : Marked) : Bool := !m.2 && separators.contains m.1
    let isGap (m : Marked) : Bool := isSeparator m && Raw.isBlank m.1
    let r := r.dropWhile isGap
    let field := r.takeWhile (!isSeparator ·)
    setVariable name (field.map Prod.fst)
    match (r.drop field.length).dropWhile isGap with
    | m :: rest => assignFields separators names (if isSeparator m then rest else m :: rest)
    | [] => assignFields separators names []

/-- Reads a line into variables. -/
def readVariables (args : List Raw) : Session Nat := do
  let raw := args.contains ['-', 'r']
  let names := args.filter (· ≠ ['-', 'r'])
  let (line, ended) ← ofProc (readLine raw (← streamOf 0) 1)
  assignFields (← separators) names line
  return if ended then 0 else 1

/-- Goes to another directory. -/
def changeDirectory (args : List Raw) : Session Nat := do
  let target ← match args.filter fun r => r ≠ ['-', 'P'] && r ≠ ['-', 'L'] with
    | [] => do pure ((← valueOf? (Raw.ofString "HOME")).getD ['/'])
    | r :: _ =>
      if r = ['-'] then do pure ((← valueOf? (Raw.ofString "OLDPWD")).getD []) else pure r
  let s ← get
  match (← ofProc Proc.disk).find s.here (Raw.toText target) with
  | .ok (l, .directory) =>
    setVariable (Raw.ofString "OLDPWD") (locationText s.here)
    setVariable (Raw.ofString "PWD") (locationText l)
    modify fun s => { s with here := l }
    if args = [['-']] then ofProc (Proc.write (← streamOf 1) (locationText l ++ ['\n']))
    return 0
  | _ =>
    if target = [] then return 0
    else
      complain (Raw.ofString "cd: can't cd to " ++ target)
      return 2

/-- The name of a signal without the letters in front. -/
def signalWord? (signal : Nat) : Option String :=
  if signal = 0 then some "EXIT"
  else (Command.signalNames[signal - 1]?).map fun name => String.ofList (name.toList.drop 3)

/-- How `kill` is used. -/
def killUsage : Raw :=
  Raw.ofString "kill: Usage: kill [-s sigspec | -signum | -sigspec] [pid | job]... or\n"
    ++ Raw.ofString "kill -l [exitstatus]"

/-- The signal and the targets of `kill`, or what is wrong with them. -/
def killArgs : List Raw → Except Raw (Nat × List Raw)
  | ['-', 's'] :: name :: rest =>
    match signal? name with
    | some n => .ok (n, rest)
    | none => .error (Raw.ofString "invalid signal number or name: " ++ name)
  | ['-', '-'] :: rest => .ok (15, rest)
  | ('-' :: name) :: rest =>
    match signal? name with
    | some n => .ok (n, rest)
    | none => .error (Raw.ofString "Illegal option -" ++ name.take 1)
  | rest => .ok (15, rest)

/-- The status of a pattern list: whether one of the patterns matches. -/
def anyMatches (run : Raw → Session Raw) (subject : Raw) : List Word → Session Bool
  | [] => return false
  | w :: ws => do
    if matchesPattern (← expandPattern run w) subject then return true
    else anyMatches run subject ws

/-- The variables that a program is given. -/
def environment : Session (List (Raw × Raw)) := do
  let s ← get
  return s.vars.filter fun v => s.exported.contains v.1

/-- The options and operands of a shell. -/
structure ShellArgs where
  inline : Bool := false
  letters : Raw := []
  operands : List Raw := []

/-- The letters of the options of a shell. -/
def optionLetters : Raw :=
  Raw.ofString "abCcEefhIiLlmnopqsuVvx"

/-- Reads the options of a shell. -/
def shellArgs : List Raw → ShellArgs
  | ['-', '-'] :: rest => { operands := rest }
  | ('-' :: c :: letters) :: rest =>
    let more := shellArgs rest
    { more with
      inline := more.inline || (c :: letters).contains 'c'
      letters := (c :: letters) ++ more.letters }
  | rest => { operands := rest }

/-- The status of a shell as the end of a program. -/
def endedOf : Except Leave Nat → Ended
  | .ok status | .error (.exited status) | .error (.returned status) => .exited (status % 256)
  | .error (.killed signal) => .killed signal
  | .error _ => .exited 0

mutual

/-- Runs a program with arguments, variables and streams. -/
def runProgram (fuel : Nat) (key : String) (name : Raw) (args : List Raw)
    (vars : List (Raw × Raw)) (here : Location) (streams : List (Nat × Nat)) : Proc Ended := do
  match fuel with
  | 0 => Proc.stuck
  | fuel + 1 =>
    let place (n : Nat) : Nat := (streams.lookup n).getD absentPlace
    let call : Call :=
      { label := name, args, here, input := place 0, output := place 1, errors := place 2 }
    match tool? key with
    | some tool => return .exited ((← tool call) % 256)
    | none =>
      let options := shellArgs args
      let path := locationText here
      let pwd := Raw.ofString "PWD"
      let state : State := {
        name
        vars := (pwd, path) :: vars.filter (·.1 ≠ pwd)
        exported := pwd :: (vars.map Prod.fst).filter (· ≠ pwd)
        here
        streams
        stopsOnFailure := options.letters.contains 'e'
        refusesUnset := options.letters.contains 'u'
        showsCommands := options.letters.contains 'x'
        keepsPatterns := options.letters.contains 'f' }
      if let some c := options.letters.find? (!optionLetters.contains ·) then
        Proc.write call.errors (name ++ Raw.ofString ": 0: Illegal option -" ++ [c, '\n'])
        return .exited 2
      let start (state : State) (source : Raw) (tail : Bool) : Proc Ended := do
        let (result, state) ← (runSource fuel tail ⟨source, 1⟩).run.run state
        match state.traps.lookup 0, result with
        | _, .error (.killed signal) => return .killed signal
        | some action, result =>
          let status := match endedOf result with | .exited n => n | .killed n => 128 + n
          let (result', _) ←
            (runSource fuel false ⟨action, 1⟩).run.run { state with traps := [], status }
          match result' with
          | .error leave => return endedOf (.error leave)
          | .ok _ => return endedOf result
        | none, result => return endedOf result
      if options.inline then
        match options.operands with
        | [] =>
          Proc.write call.errors (name ++ Raw.ofString ": 0: -c requires an argument\n")
          return .exited 2
        | source :: rest =>
          start { state with name := rest.headD name, params := rest.drop 1 } source true
      else
        match if options.letters.contains 's' then [] else options.operands with
        | [] => start { state with params := options.operands } (← Proc.readAll call.input) false
        | file :: params =>
          match ← call.readFile file with
          | .ok source => start { state with name := file, params } source false
          | .error .isDirectory => return .exited 0
          | .error e =>
            Proc.write call.errors
              (name ++ Raw.ofString ": 0: " ++ redirectionError false file e ++ ['\n'])
            return .exited 2

/-- Runs the commands of a program one after the other. With `tail` the last one takes the place of
the shell. -/
def runSource (fuel : Nat) (tail : Bool) (source : Source) : Session Nat := do
  match fuel with
  | 0 => ofProc Proc.stuck
  | fuel + 1 =>
    match readCommand.run source with
    | .error fault =>
      modify fun s => { s with line := fault.line }
      let message :=
        if fault.message = Raw.ofString "Bad substitution" then fault.message
        else Raw.ofString "Syntax error: " ++ fault.message
      abort message
    | .ok (none, _) => return (← get).status
    | .ok (some tree, rest) =>
      let isLast := (skipGaps rest.rest.length rest.rest).all Raw.isBlank
      let status ← runTree fuel (tail && isLast) tree
      modify fun s => { s with status }
      runSource fuel tail rest

/-- The output of a program that stands in a word. -/
def outputOf (fuel : Nat) (source : Raw) : Session Raw := do
  match fuel with
  | 0 => ofProc Proc.stuck
  | fuel + 1 =>
    let i ← ofProc (Proc.open_ (.collected []))
    let status ← inCopy do
      setStreamPlace 1 (some i)
      modify fun s => { s with traps := [] }
      runSource fuel true ⟨source, (← get).line⟩
    modify fun s => { s with substituted := some status }
    ofProc (Proc.collected i)

/-- Runs a program as a command of a shell. With `tail` it takes the place of the shell. -/
def runCommand (fuel : Nat) (tail : Bool) (name : Raw) (args : List Raw) : Session Nat := do
  match fuel with
  | 0 => ofProc Proc.stuck
  | fuel + 1 =>
    let s ← get
    match findProgram (← ofProc Proc.disk) s.here (Raw.toText name) with
    | .error .noEntry | .error .notDirectory | .error .nulInPath =>
      complain (name ++ Raw.ofString (if name = [] then ": Permission denied" else ": not found"))
      return 127
    | .error e =>
      complain (name ++ Raw.ofString ": " ++ Call.complainOf.reason e)
      return 126
    | .ok key =>
      match ← ofProc (runProgram fuel key name args (← environment) s.here s.streams) with
      | .exited status => return status
      | .killed signal =>
        if tail then throw (.killed signal)
        else
          match signalNote signal with
          | some note => ofProc (Proc.write (← streamOf 2) (Raw.ofString note ++ ['\n']))
          | none => pure ()
          return 128 + signal

/-- Sends a signal to the shell itself. -/
def signalSelf (fuel : Nat) (signal : Nat) : Session Unit := do
  match fuel with
  | 0 => ofProc Proc.stuck
  | fuel + 1 =>
    let traps := (← get).traps
    match if signal = 9 || isStop signal then none else traps.lookup signal with
    | some action =>
      let _ ← runSource fuel false ⟨action, 1⟩
    | none =>
      if isStop signal then ofProc Proc.stuck
      else if !isHarmless signal then throw (.killed signal)

/-- Runs a command of the shell itself. -/
def runBuiltin (fuel : Nat) (tail : Bool) (name : String) (args : List Raw) : Session Nat := do
  match fuel with
  | 0 => ofProc Proc.stuck
  | fuel + 1 =>
    let call ← callOf (Raw.ofString name) args
    match name with
    | ":" | "true" | "hash" | "jobs" | "alias" | "unalias" => return 0
    | "wait" =>
      match args with
      | [] => return 0
      | r :: _ =>
        match (← get).background with
        | some status => return if r = backgroundNumber then status else 127
        | none => return 127
    | "umask" =>
      if args = [] then ofProc (Proc.write call.output (Raw.ofString "0022\n"))
      return 0
    | "type" =>
      let mut status := 0
      for word in args do
        status := max status (← describeWord call word)
      return status
    | "false" => return 1
    | "echo" => ofProc (Tool.echo .shell call)
    | "printf" => ofProc (Tool.printf .shell call)
    | "test" => ofProc (Tool.test .shell false call)
    | "[" => ofProc (Tool.test .shell true call)
    | "cd" => changeDirectory args
    | "pwd" =>
      ofProc (Proc.write call.output (locationText call.here ++ ['\n']))
      return 0
    | "read" => readVariables args
    | "set" =>
      setOptions args
      return 0
    | "shift" =>
      let n ← match args with | [] => pure 1 | r :: _ => numberOf "shift" r
      if (← get).params.length < n then abort (Raw.ofString "shift: can't shift that many")
      else
        modify fun s => { s with params := s.params.drop n }
        return 0
    | "export" =>
      for r in args do
        let assigned ← assignText r
        modify fun s => { s with exported := assigned :: s.exported }
      return 0
    | "readonly" =>
      for r in args do
        let assigned ← assignText r
        modify fun s => { s with readOnly := assigned :: s.readOnly }
      return 0
    | "local" =>
      if (← get).locals.isNone then abort (Raw.ofString "local: not in a function")
      else
        for r in args do
          makeLocal (r.takeWhile (· ≠ '='))
          let _ ← assignText r
        return 0
    | "unset" =>
      for r in args do
        if (← get).readOnly.contains r then
          abort (Raw.ofString "unset: " ++ r ++ Raw.ofString ": is read only")
        modify fun s =>
          { s with vars := s.vars.filter (·.1 ≠ r), functions := s.functions.filter (·.1 ≠ r) }
      return 0
    | "exit" =>
      let status ← match args with | [] => do pure (← get).status | r :: _ => numberOf "exit" r
      throw (.exited status)
    | "return" =>
      let status ← match args with | [] => do pure (← get).status | r :: _ => numberOf "return" r
      throw (.returned status)
    | "break" =>
      leaveLoops .breaking (← match args with | [] => pure 1 | r :: _ => numberOf "break" r)
    | "continue" =>
      leaveLoops .continuing (← match args with | [] => pure 1 | r :: _ => numberOf "continue" r)
    | "eval" =>
      let line := (← get).line
      runSource fuel tail ⟨List.intercalate [' '] args, line⟩
    | "." =>
      match args with
      | [] => abort (Raw.ofString ".: filename argument required")
      | file :: _ =>
        if !file.contains '/' then
          abort (Raw.ofString ".: " ++ file ++ Raw.ofString ": not found")
        else
          match ← ofProc (call.readFile file) with
          | .ok source => runSource fuel false ⟨source, 1⟩
          | .error _ =>
            abort (Raw.ofString ".: cannot open " ++ file ++ Raw.ofString ": No such file")
    | "trap" =>
      match args with
      | action :: signals =>
        for r in signals do
          match signal? r with
          | some n =>
            modify fun s =>
              let others := s.traps.filter (·.1 ≠ n)
              { s with traps := if action = ['-'] then others else (n, action) :: others }
          | none =>
            let message := Raw.ofString "trap: " ++ r ++ Raw.ofString ": bad trap\n"
            ofProc (Proc.write call.errors message)
            return 1
        return 0
      | [] => return 0
    | "command" =>
      match args with
      | ['-', 'v'] :: word :: _ =>
        let text := Raw.toText word
        let known := isBuiltin text || ((← get).functions.lookup word).isSome
        if known then
          ofProc (Proc.write call.output (word ++ ['\n']))
          return 0
        else
          match findProgram (← ofProc Proc.disk) call.here text with
          | .ok key =>
            let path := if word.contains '/' then word else Raw.ofString ("/usr/bin/" ++ key)
            ofProc (Proc.write call.output (path ++ ['\n']))
            return 0
          | .error _ => return 127
      | ['-', 'V'] :: word :: _ => describeWord call word
      | word :: rest =>
        let text := Raw.toText word
        if isBuiltin text then runBuiltin fuel tail text rest else runCommand fuel tail word rest
      | [] => return 0
    | "kill" =>
      match args with
      | [] =>
        complain killUsage
        return 2
      | ['-', 'l'] :: r :: _ =>
        match (Raw.toInt? r).bind fun n => signalWord? (n.toNat % 128) with
        | some word =>
          ofProc (Proc.write call.output (Raw.ofString word ++ ['\n']))
          return 0
        | none =>
          complain (Raw.ofString "kill: invalid signal number or exit status: " ++ r)
          return 2
      | _ =>
        match killArgs args with
        | .error message =>
          complain (Raw.ofString "kill: " ++ message)
          return 2
        | .ok (_, []) =>
          complain killUsage
          return 2
        | .ok (signal, targets) =>
          let mut status := 0
          for r in targets do
            if r = ownNumber || r = ['0'] then signalSelf fuel signal
            else if (Raw.toInt? r).isNone then
              complain (Raw.ofString "kill: Illegal number: " ++ r)
              return 2
            else
              complain (Raw.ofString "kill: No such process\n")
              status := 1
          return status
    | "exec" =>
      match args with
      | [] => return 0
      | word :: rest =>
        let s ← get
        match findProgram (← ofProc Proc.disk) s.here (Raw.toText word) with
        | .error e =>
          let missing := e = .noEntry || e = .notDirectory
          complain (Raw.ofString "exec: " ++ word
            ++ if missing then Raw.ofString ": not found"
              else Raw.ofString ": " ++ Call.complainOf.reason e)
          throw (.exited (if missing then 127 else 126))
        | .ok key =>
          match ← ofProc (runProgram fuel key word rest (← environment) s.here s.streams) with
          | .exited status => throw (.exited status)
          | .killed signal => throw (.killed signal)
    | _ => return 0

/-- Runs a simple command. -/
def runSimple (fuel : Nat) (tail : Bool) (assignments : List (Raw × Word)) (words : List Word)
    (redirections : List Redirection) : Session Nat := do
  match fuel with
  | 0 => ofProc Proc.stuck
  | fuel + 1 =>
    modify fun s => { s with substituted := none }
    let fields ← expandAll (outputOf fuel) words
    let assign : Session (List Raw) :=
      assignments.mapM fun (name, value) => do
        let value ← expandText (outputOf fuel) value
        setVariable name value
        return name ++ '=' :: value
    match fields with
    | [] =>
      showCommand (← assign)
      let status := ((← get).substituted).getD 0
      withRedirections (outputOf fuel) redirections (return status)
    | name :: args =>
      let text := Raw.toText name
      let saved ← get
      let special := isSpecialBuiltin text
      if text = "exec" then
        if ← redirectAll (outputOf fuel) redirections then
          showCommand ((← assign) ++ fields)
          runBuiltin fuel tail text args
        else throw (.exited 2)
      else
        let redirected ← redirectAll (outputOf fuel) redirections
        if !redirected then
          modify fun s => { s with streams := saved.streams }
          if special then throw (.exited 2) else return 2
        else
          let assigned ← assign
          let streams := (← get).streams
          modify fun s => { s with streams := saved.streams }
          showCommand (assigned ++ fields)
          modify fun s => { s with streams }
          let body : Session Nat :=
            match saved.functions.lookup name with
            | some tree => do
              modify fun s => { s with params := args, locals := some [], loops := 0 }
              let result ← ExceptT.lift (runTree fuel false tree).run
              restoreLocals saved.locals
              modify fun s => { s with params := saved.params, loops := saved.loops }
              match result with
              | .ok status | .error (.returned status) => return status
              | .error leave => throw leave
            | none =>
              if isBuiltin text then runBuiltin fuel tail text args
              else do
                modify fun s => { s with exported := assignments.map Prod.fst ++ s.exported }
                runCommand fuel tail name args
          let result ← ExceptT.lift body.run
          modify fun s => { s with streams := saved.streams }
          if !special && assignments.length > 0 && (saved.functions.lookup name).isNone then
            let isAssigned (v : Raw × Raw) : Bool := (assignments.lookup v.1).isSome
            modify fun s =>
              { s with
                vars := s.vars.filter (!isAssigned ·) ++ saved.vars.filter isAssigned
                exported := saved.exported }
          match result with
          | .ok status => return status
          | .error leave => throw leave

/-- Runs the commands of a pipeline; each one reads what the one before it wrote. -/
def runPipeline (fuel : Nat) (input : Option Nat) (commands : List Tree) : Session Nat := do
  match fuel, commands with
  | 0, _ => ofProc Proc.stuck
  | _, [] => return 0
  | fuel + 1, [last] =>
    inCopy do
      if let some i := input then setStreamPlace 0 (some i)
      runTree fuel true last
  | fuel + 1, command :: rest =>
    let output ← ofProc (Proc.open_ (.collected []))
    let _ ← inCopy do
      if let some i := input then setStreamPlace 0 (some i)
      setStreamPlace 1 (some output)
      runTree fuel true command
    let text ← ofProc (Proc.collected output)
    ofProc (Proc.setStream output (.supply text))
    runPipeline fuel (some output) rest

/-- Runs a loop. Every round lets the other processes go on. -/
def runLoop (fuel : Nat) (untilHolds : Bool) (condition body : Tree) (status : Nat) :
    Session Nat := do
  match fuel with
  | 0 => ofProc Proc.stuck
  | fuel + 1 =>
    ofProc (Proc.pause 0)
    let result ← inLoop (do
      let holds ← asCondition (runTree fuel false condition)
      if (holds = 0) = untilHolds then return none
      else return some (← runTree fuel false body) : Session (Option Nat))
    match result with
    | .ok none => return status
    | .ok (some status) => runLoop fuel untilHolds condition body status
    | .error (.breaking n) => if n ≤ 1 then return 0 else throw (.breaking (n - 1))
    | .error (.continuing n) =>
      if n ≤ 1 then runLoop fuel untilHolds condition body 0 else throw (.continuing (n - 1))
    | .error leave => throw leave

/-- Runs the body of a loop for each of some words. -/
def runEach (fuel : Nat) (name : Raw) (words : List Raw) (body : Tree) (status : Nat) :
    Session Nat := do
  match fuel, words with
  | 0, _ => ofProc Proc.stuck
  | _, [] => return status
  | fuel + 1, word :: rest =>
    ofProc (Proc.pause 0)
    setVariable name word
    match ← inLoop (runTree fuel false body) with
    | .ok status => runEach fuel name rest body status
    | .error (.breaking n) => if n ≤ 1 then return 0 else throw (.breaking (n - 1))
    | .error (.continuing n) =>
      if n ≤ 1 then runEach fuel name rest body 0 else throw (.continuing (n - 1))
    | .error leave => throw leave

/-- Runs the first clause that a subject matches. -/
def runClauses (fuel : Nat) (tail : Bool) (subject : Raw) (clauses : List (List Word × Tree)) :
    Session Nat := do
  match fuel, clauses with
  | 0, _ => ofProc Proc.stuck
  | _, [] => return 0
  | fuel + 1, (patterns, body) :: rest =>
    if ← anyMatches (outputOf fuel) subject patterns then runTree fuel tail body
    else runClauses fuel tail subject rest

/-- Runs a command. -/
def runTree (fuel : Nat) (tail : Bool) (tree : Tree) : Session Nat := do
  match fuel with
  | 0 => ofProc Proc.stuck
  | fuel + 1 =>
    match tree with
    | .nothing => return (← get).status
    | .simple line assignments words redirections =>
      modify fun s => { s with line }
      checked (← runSimple fuel tail assignments words redirections)
    | .pipeline negated commands =>
      if negated then
        let status ← asCondition (runPipeline fuel none commands)
        return if status = 0 then 1 else 0
      else checked (← runPipeline fuel none commands)
    | .both first second =>
      let status ← asCondition (runTree fuel false first)
      modify fun s => { s with status }
      if status = 0 then runTree fuel tail second else return status
    | .either first second =>
      let status ← asCondition (runTree fuel false first)
      modify fun s => { s with status }
      if status = 0 then return status else runTree fuel tail second
    | .sequence first .nothing => runTree fuel tail first
    | .sequence first second =>
      let status ← runTree fuel false first
      modify fun s => { s with status }
      runTree fuel tail second
    | .background command =>
      let null ← ofProc (Proc.open_ .null)
      let status ← inCopy do
        setStreamPlace 0 (some null)
        runTree fuel true command
      modify fun s => { s with background := some status }
      return 0
    | .grouped body redirections =>
      withRedirections (outputOf fuel) redirections (runTree fuel tail body)
    | .subshell body redirections =>
      checked (← withRedirections (outputOf fuel) redirections (inCopy (runTree fuel true body)))
    | .choice condition yes no redirections =>
      withRedirections (outputOf fuel) redirections do
        let status ← asCondition (runTree fuel false condition)
        modify fun s => { s with status := 0 }
        if status = 0 then runTree fuel tail yes else runTree fuel tail no
    | .loop untilHolds condition body redirections =>
      withRedirections (outputOf fuel) redirections (runLoop fuel untilHolds condition body 0)
    | .each name words body redirections =>
      withRedirections (outputOf fuel) redirections do
        let fields ← match words with
          | some ws => expandAll (outputOf fuel) ws
          | none => pure (← get).params
        runEach fuel name fields body 0
    | .cases subject clauses redirections =>
      withRedirections (outputOf fuel) redirections do
        let text ← expandText (outputOf fuel) subject
        modify fun s => { s with status := 0 }
        runClauses fuel tail text clauses
    | .define name body =>
      modify fun s => { s with functions := (name, body) :: s.functions.filter (·.1 ≠ name) }
      return 0

end

/-- The number of steps that may nest or repeat in a process. -/
def processFuel : Nat :=
  20000

end BenchSweep.Host.Shell
