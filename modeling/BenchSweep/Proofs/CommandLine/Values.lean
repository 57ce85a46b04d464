import BenchSweep.Proofs.CommandLine.Fields
import BenchSweep.Proofs.Number.Count
import BenchSweep.Proofs.Text.Words

/-!
# What a text says for a flag

The text that is given for a flag is the value of its field as it stands, or a row of words, or a
number, or a list of numbers. A row of words can be read always; a number or a list may be refused,
and then the failure names the flag and, in a list, the entry.

## Scope

Words and numbers are told here by the characters of the text, with `Text.IsWords` and
`Number.IsCount`, and not by the readers of them. A list is what `readCounts` and `readRatios` read
of its text; the laws of these are the subject of `BenchSweep.Proofs.ListText`, and what is added
here is which list belongs to which flag, and which failure to which flag.

## Main definitions

* `Flag.HasVariable`: the variable behind a flag.
* `Flag.Says`: a text says a value for the field of a flag.
* `Flag.Refuses`: a text says nothing for the field of a flag, with the failure that tells why.

## Main results

* `Flag.variableName?_eq_some_iff`: the variables are these.
* `Flag.read_eq_ok_iff`, `Flag.read_eq_error_iff`: what is read for a flag.
-/

namespace BenchSweep.CommandLine.Flag

open Number (IsCount IsNoCount)

/-- The variable of the environment behind a flag; the other flags have none. -/
inductive HasVariable : Flag → String → Prop
  | workdir : HasVariable workdir "KVSWEEP_WORKDIR"
  | configFile : HasVariable configFile "KVSWEEP_ECS_CONFIG"
  | host : HasVariable host "KVSWEEP_ZK_HOST"
  | port : HasVariable port "KVSWEEP_ZK_PORT"
  | artifact : HasVariable artifact "KVSWEEP_SERVER_ARTIFACT"
  | dataDir : HasVariable dataDir "KVSWEEP_DATA_DIR"

/-- A text says a value for the field of a flag. -/
def Says : (f : Flag) → String → f.Field → Prop
  | workdir, text, v => v = some text
  | skipBuild, _, v => v = []
  | benchmark, text, v => Text.IsWords text.toList (v.map String.toList)
  | configFile, text, v | host, text, v | artifact, text, v | dataDir, text, v | output, text, v =>
    v = text
  | port, text, v => IsCount UInt16.size text.toList v.toNat
  | servers, text, v | clients, text, v => readCounts text = .ok v
  | ratios, text, v => readRatios text = .ok v
  | parallel, text, v => IsCount UInt64.size text.toList v.toNat
  | timeout, text, v => ∃ n, v = some n ∧ IsCount UInt64.size text.toList n.toNat
  | config, _, _ | dryRun, _, _ => True

/-- A text says nothing for the field of a flag. The failure names the flag and, in a list, the
first entry that is refused. -/
inductive Refuses : Flag → String → Failure → Prop
  | port {text : String} {e : Number.CountError} (h : IsNoCount UInt16.size text.toList e) :
      Refuses port text ⟨[.numberFlag .port], .count e⟩
  | servers {text : String} {e : ListError Number.CountError} (h : readCounts text = .error e) :
      Refuses servers text ⟨[.listFlag .servers, .listEntry (.ofList e.entry)], .count e.cause⟩
  | clients {text : String} {e : ListError Number.CountError} (h : readCounts text = .error e) :
      Refuses clients text ⟨[.listFlag .clients, .listEntry (.ofList e.entry)], .count e.cause⟩
  | ratios {text : String} {e : ListError Number.NumeralError} (h : readRatios text = .error e) :
      Refuses ratios text ⟨[.listFlag .ratios, .listEntry (.ofList e.entry)], .numeral e.cause⟩
  | parallel {text : String} {e : Number.CountError} (h : IsNoCount UInt64.size text.toList e) :
      Refuses parallel text ⟨[.numberFlag .parallel], .count e⟩
  | timeout {text : String} {e : Number.CountError} (h : IsNoCount UInt64.size text.toList e) :
      Refuses timeout text ⟨[.numberFlag .timeout], .count e⟩

variable {f : Flag} {text : String}

theorem HasVariable.variableName?_eq {name : String} (h : f.HasVariable name) :
    f.variableName? = some name := by
  cases h <;> decide +kernel

/-- **The variables** are those of the table. -/
theorem variableName?_eq_some_iff {name : String} :
    f.variableName? = some name ↔ f.HasVariable name := by
  refine ⟨fun h => ?_, HasVariable.variableName?_eq⟩
  have hunique {name' : String} (h' : f.HasVariable name') : f.HasVariable name :=
    Option.some.inj (h'.variableName?_eq.symm.trans h) ▸ h'
  cases f with
  | workdir => exact hunique .workdir
  | configFile => exact hunique .configFile
  | host => exact hunique .host
  | port => exact hunique .port
  | artifact => exact hunique .artifact
  | dataDir => exact hunique .dataDir
  | config | skipBuild | benchmark | servers | clients | ratios | output | parallel | timeout
  | dryRun => cases h

/-! ### Readers of values -/

section

variable {α : Type} {read : List Char → Except Number.CountError α} {flag : NumberFlag}

theorem readNumber_eq_ok_iff {v : α} :
    readNumber flag read text = .ok v ↔ read text.toList = .ok v :=
  mapError_eq_ok_iff

theorem readNumber_eq_error_iff {e : Failure} :
    readNumber flag read text = .error e ↔
      ∃ cause, read text.toList = .error cause ∧ e = ⟨[.numberFlag flag], .count cause⟩ :=
  mapError_eq_error_iff

end

/-- **What is read for a flag.** -/
theorem read_eq_ok_iff {v : f.Field} : f.read text = .ok v ↔ f.Says text v := by
  cases f with
  | workdir | skipBuild | configFile | host | artifact | dataDir | output =>
    exact ⟨fun h => (Except.ok.inj h).symm, fun h => congrArg Except.ok h.symm⟩
  | benchmark =>
    refine Iff.trans ?_ Text.words_eq_iff
    exact ⟨Except.ok.inj, congrArg Except.ok⟩
  | port => exact readNumber_eq_ok_iff.trans Number.readPort_eq_ok_iff
  | servers | clients | ratios => exact mapError_eq_ok_iff
  | parallel => exact readNumber_eq_ok_iff.trans Number.readCount_eq_ok_iff
  | timeout =>
    constructor
    · intro h
      obtain ⟨n, hn, rfl⟩ := exists_of_map_eq_ok h
      exact ⟨n, rfl, Number.readCount_eq_ok_iff.1 (readNumber_eq_ok_iff.1 hn)⟩
    · rintro ⟨n, rfl, hn⟩
      have hread : readNumber .timeout Number.readCount text = .ok n :=
        readNumber_eq_ok_iff.2 (Number.readCount_eq_ok_iff.2 hn)
      exact congrArg (Except.map some) hread
  | config | dryRun => exact ⟨fun _ => trivial, fun _ => rfl⟩

/-- **What is refused for a flag.** -/
theorem read_eq_error_iff {e : Failure} : f.read text = .error e ↔ f.Refuses text e := by
  constructor
  · intro h
    cases f with
    | workdir | skipBuild | configFile | host | artifact | dataDir | output | benchmark | config
    | dryRun => cases h
    | port =>
      obtain ⟨cause, hcause, rfl⟩ := readNumber_eq_error_iff.1 h
      exact .port (Number.readPort_eq_error_iff.1 hcause)
    | servers =>
      obtain ⟨cause, hcause, rfl⟩ := mapError_eq_error_iff.1 h
      exact .servers hcause
    | clients =>
      obtain ⟨cause, hcause, rfl⟩ := mapError_eq_error_iff.1 h
      exact .clients hcause
    | ratios =>
      obtain ⟨cause, hcause, rfl⟩ := mapError_eq_error_iff.1 h
      exact .ratios hcause
    | parallel =>
      obtain ⟨cause, hcause, rfl⟩ := readNumber_eq_error_iff.1 h
      exact .parallel (Number.readCount_eq_error_iff.1 hcause)
    | timeout =>
      obtain ⟨cause, hcause, rfl⟩ := readNumber_eq_error_iff.1 (eq_error_of_map h)
      exact .timeout (Number.readCount_eq_error_iff.1 hcause)
  · intro h
    cases h with
    | port h => exact readNumber_eq_error_iff.2 ⟨_, Number.readPort_eq_error_iff.2 h, rfl⟩
    | servers h | clients h | ratios h => exact mapError_eq_error_iff.2 ⟨_, h, rfl⟩
    | parallel h => exact readNumber_eq_error_iff.2 ⟨_, Number.readCount_eq_error_iff.2 h, rfl⟩
    | timeout h =>
      have hread : readNumber .timeout Number.readCount text = .error _ :=
        readNumber_eq_error_iff.2 ⟨_, Number.readCount_eq_error_iff.2 h, rfl⟩
      exact congrArg (Except.map some) hread

end BenchSweep.CommandLine.Flag
