import BenchSweep.CommandLine.Flag

/-!
# Settings

The flags that a command line gives, together with the variables of the environment.

A flag is given by its name after dashes. Its value follows after an equals sign or as the next
argument, which must not start with a dash unless it is a single one. An argument of two dashes ends
the flags. No flag may be given twice, and no value may be left out, unless a variable gives it.

## Main definitions

* `Use`: a flag with the value beside it.
* `Settings`: flags and variables.
* `Settings.value?`, `Settings.has`: the value of a flag, and whether a flag is given.
* `Settings.read`: the settings of a list of arguments.
-/

namespace BenchSweep.CommandLine

/-- A flag with the value that is given beside it. -/
structure Use where
  flag : Flag
  value : Option String := none
  deriving DecidableEq, Repr

/-- Why a command line is refused. -/
inductive UsageError where
  | unknown (arg : String)
  | missingValue (flag : Flag)
  | repeated (flag : Flag)
  deriving DecidableEq, Repr

/-- The wording of a usage error. -/
def UsageError.message : UsageError → String
  | .unknown arg =>
    "Found argument '" ++ arg ++ "' which wasn't expected, or isn't valid in this context"
  | .missingValue flag =>
    "The argument '" ++ flag.usage ++ "' requires a value but none was supplied"
  | .repeated flag =>
    "The argument '" ++ flag.usage
      ++ "' was provided more than once, but cannot be used multiple times"

/-- Why a command line does not lead to settings. -/
inductive Stop where
  | help
  | version
  | refused (error : UsageError)
  deriving DecidableEq, Repr

/-! ### Single arguments -/

/-- What an argument is by itself. -/
inductive Shape where
  | plain
  /-- Two dashes. -/
  | terminator
  /-- A character after one dash. -/
  | short (c : Char)
  /-- A name after dashes, and what stands after an equals sign. -/
  | long (name : String) (value : Option String)
  deriving DecidableEq, Repr

/-- What an argument is. All dashes in front of a name and all equals signs in front of a value are
left out. -/
def Shape.ofArg (arg : String) : Shape :=
  match arg.toList with
  | ['-', '-'] => .terminator
  | '-' :: '-' :: rest =>
    let body := rest.dropWhile (· = '-')
    let name := body.takeWhile (· ≠ '=')
    match body.drop name.length with
    | [] => .long (String.ofList name) none
    | value => .long (String.ofList name) (some (String.ofList (value.dropWhile (· = '='))))
  | '-' :: c :: _ => .short c
  | _ => .plain

/-- Why reading stops at a flag of one character. -/
def stopAtShort (c : Char) : Stop :=
  if c = 'V' then .version
  else if c = 'h' then .help
  else .refused (.unknown (String.ofList ['-', c]))

/-- Why reading stops at a name that is not that of a flag. -/
def stopAtName (name : String) : Stop :=
  if name = "version" then .version
  else if name = "help" then .help
  else .refused (.unknown ("--" ++ name))

/-! ### Lists of arguments -/

/-- The flags that arguments give, in order. -/
def readUses : List String → Except Stop (List Use)
  | [] => .ok []
  | arg :: rest =>
    match Shape.ofArg arg with
    | .plain => .error (.refused (.unknown arg))
    | .short c => .error (stopAtShort c)
    | .terminator =>
      match rest with
      | [] => .ok []
      | next :: _ => .error (.refused (.unknown next))
    | .long name value =>
      match Flag.ofName? name with
      | none => .error (stopAtName name)
      | some flag =>
        if !flag.takesValue then (readUses rest).map (⟨flag, none⟩ :: ·)
        else
          match value, rest with
          | some value, rest => (readUses rest).map (⟨flag, some value⟩ :: ·)
          | none, [] => .ok [⟨flag, none⟩]
          | none, next :: later =>
            if Shape.ofArg next = .plain then (readUses later).map (⟨flag, some next⟩ :: ·)
            else (readUses (next :: later)).map (⟨flag, none⟩ :: ·)

/-- Flags and variables. -/
structure Settings where
  /-- The flags that are given, in order. -/
  uses : List Use
  /-- The values of the variables of the environment. -/
  env : String → Option String

namespace Settings

/-- Whether a flag is given. -/
def has (s : Settings) (f : Flag) : Bool :=
  s.uses.any (·.flag = f)

/-- The value that is given beside a flag, or else that of its variable. -/
def value? (s : Settings) (f : Flag) : Option String :=
  (s.uses.findSome? fun u => if u.flag = f then u.value else none).or
    (f.variableName?.bind s.env)

/-- Whether a flag takes a value but has none. -/
def lacksValue (s : Settings) (f : Flag) : Bool :=
  f.takesValue && (s.value? f).isNone

/-- What is wrong with a flag that is given. -/
def flagError? (s : Settings) (f : Flag) : Option UsageError :=
  if s.lacksValue f then some (.missingValue f)
  else if 1 < s.uses.countP (·.flag = f) then some (.repeated f)
  else none

/-- What is wrong with the flags that are given: the value that the last one lacks, and otherwise
the first error in order. -/
def error? (s : Settings) : Option UsageError :=
  match s.uses.getLast? with
  | none => none
  | some last =>
    if s.lacksValue last.flag then some (.missingValue last.flag)
    else s.uses.findSome? fun u => s.flagError? u.flag

/-- The settings of a list of arguments. -/
def read (args : List String) (env : String → Option String) : Except Stop Settings :=
  match readUses args with
  | .error stop => .error stop
  | .ok uses =>
    let s : Settings := ⟨uses, env⟩
    match s.error? with
    | some error => .error (.refused error)
    | none => .ok s

end Settings

end BenchSweep.CommandLine
