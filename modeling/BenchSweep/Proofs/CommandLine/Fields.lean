import BenchSweep.CommandLine.Override
import BenchSweep.Proofs.Except

/-!
# Flags and fields

Every field of a configuration belongs to one flag, and every flag but two sets one field. Putting
the values of a command line into a configuration is a walk over the flags: each step sets the field
of its flag, if there is something to set it to, and leaves the other fields alone.

## Why the fields are a family of types

A configuration has records inside records, and the flags do not follow this shape. With
`Flag.Field`, the value that a flag sets has a type of its own, and to look at a field and to set it
obey two laws, `Config.field_setField_self` and `Config.field_setField_of_ne`. All that follows is
said by these, so a flag that is added is one more case in three definitions and no new argument.

## Why there is a walk

The values of a command line are put in by one expression after the other, with a name for each.
`Settings.override_eq_foldlM` turns them into one walk over the flags, and from there on each result
is an induction on the row of flags, with a flag in front of the others. The file of the
configuration and the dry run set no field; their steps change nothing.

## Scope

`Flag.read` is the function that the walk applies to a text. What it makes of the text is the
subject of `BenchSweep.Proofs.CommandLine.Values`.

## Main definitions

* `Flag.Field`, `Config.field`, `Config.setField`: the field of a flag.
* `Flag.read`: what a text says for the field of a flag.
* `Settings.given?`: the text that is given for a flag.
* `Settings.resolve`: the value of a field, by the settings over a configuration.

## Main results

* `Config.ext_field`: a configuration is told by the fields of the flags.
* `Settings.override_eq_foldlM`: the values are put in one flag after the other.
* `Settings.override_eq_ok_iff`, `Settings.override_eq_error_iff`: what comes of it.
-/

namespace BenchSweep

open CommandLine (Flag)
open Number (Binary64)

namespace CommandLine.Flag

/-- The type of the field that a flag sets; that of the flags that set none has one value. -/
def Field : Flag → Type
  | workdir => Option String
  | skipBuild => List (List String)
  | benchmark => List String
  | configFile | host | artifact | dataDir | output => String
  | port => UInt16
  | servers | clients => List UInt64
  | ratios => List Binary64
  | parallel => UInt64
  | timeout => Option UInt64
  | config | dryRun => Unit

/-- What a text says for the field of a flag. To skip the build is to have no build steps. -/
def read : (f : Flag) → ValueReader f.Field
  | workdir => fun text => .ok (some text)
  | skipBuild => fun _ => .ok []
  | benchmark => readWords
  | configFile | host | artifact | dataDir | output => readAny
  | port => readNumber .port Number.readPort
  | servers => readCountList .servers
  | clients => readCountList .clients
  | ratios => readRatioList
  | parallel => readNumber .parallel Number.readCount
  | timeout => fun text => (readNumber .timeout Number.readCount text).map some
  | config | dryRun => fun _ => .ok ()

theorem nodup_all : all.Nodup := by
  decide

theorem mem_all (f : Flag) : f ∈ all := by
  cases f <;> decide

end CommandLine.Flag

namespace Config

/-- The field that a flag sets. -/
def field (c : Config) : (f : Flag) → f.Field
  | .workdir => c.workdir
  | .skipBuild => c.build
  | .benchmark => c.benchmark
  | .configFile => c.invocation.configFile
  | .host => c.invocation.host
  | .port => c.invocation.port
  | .artifact => c.invocation.artifact
  | .dataDir => c.invocation.dataDir
  | .servers => c.grid.servers
  | .clients => c.grid.clients
  | .ratios => c.grid.ratios
  | .output => c.output
  | .parallel => c.parallel
  | .timeout => c.timeoutSeconds
  | .config | .dryRun => ()

/-- A configuration with another value of the field that a flag sets. -/
def setField (c : Config) : (f : Flag) → f.Field → Config
  | .workdir, v => { c with workdir := v }
  | .skipBuild, v => { c with build := v }
  | .benchmark, v => { c with benchmark := v }
  | .configFile, v => { c with invocation.configFile := v }
  | .host, v => { c with invocation.host := v }
  | .port, v => { c with invocation.port := v }
  | .artifact, v => { c with invocation.artifact := v }
  | .dataDir, v => { c with invocation.dataDir := v }
  | .servers, v => { c with grid.servers := v }
  | .clients, v => { c with grid.clients := v }
  | .ratios, v => { c with grid.ratios := v }
  | .output, v => { c with output := v }
  | .parallel, v => { c with parallel := v }
  | .timeout, v => { c with timeoutSeconds := v }
  | .config, _ | .dryRun, _ => c

variable {c c' : Config} {f g : Flag}

@[simp] theorem field_setField_self (v : f.Field) : (c.setField f v).field f = v := by
  cases f <;> rfl

/-- To set the field of one flag leaves those of the others alone. -/
theorem field_setField_of_ne (h : g ≠ f) (v : f.Field) : (c.setField f v).field g = c.field g := by
  cases f <;> cases g <;> first | rfl | exact absurd rfl h

@[simp] theorem setField_field (c : Config) (f : Flag) : c.setField f (c.field f) = c := by
  cases f <;> rfl

/-- A configuration is told by the fields of the flags. -/
theorem ext_field (h : ∀ f, c.field f = c'.field f) : c = c' := by
  obtain ⟨workdir, build, benchmark, ⟨_, _, _, _, _⟩, ⟨_, _, _⟩, output, parallel, timeout⟩ := c
  obtain ⟨workdir', build', benchmark', ⟨_, _, _, _, _⟩, ⟨_, _, _⟩, output', parallel',
    timeout'⟩ := c'
  obtain rfl : workdir = workdir' := h .workdir
  obtain rfl : build = build' := h .skipBuild
  obtain rfl : benchmark = benchmark' := h .benchmark
  obtain rfl : output = output' := h .output
  obtain rfl : parallel = parallel' := h .parallel
  obtain rfl : timeout = timeout' := h .timeout
  congr 2
  · exact h .configFile
  · exact h .host
  · exact h .port
  · exact h .artifact
  · exact h .dataDir
  · exact h .servers
  · exact h .clients
  · exact h .ratios

end Config

namespace CommandLine.Settings

variable {s : Settings} {c c' : Config}

/-- The text that is given for a flag, empty for a flag that takes none. -/
def given? (s : Settings) (f : Flag) : Option String :=
  if f.takesValue then s.value? f else if s.has f then some "" else none

/-- The value of a field: what is given for its flag, or else that of the configuration. -/
def resolve (s : Settings) (c : Config) (f : Flag) : Except Failure f.Field :=
  match s.given? f with
  | none => .ok (c.field f)
  | some text => f.read text

/-- What is wrong with the text that is given for a flag. -/
def fault? (s : Settings) (f : Flag) : Option Failure :=
  (s.given? f).bind fun text =>
    match f.read text with
    | .ok _ => none
    | .error e => some e

/-- A configuration with the value for one flag put in. -/
def set (s : Settings) (c : Config) (f : Flag) : Except Failure Config :=
  (s.resolve c f).map (c.setField f)

/-! ### One flag -/

theorem put_eq_set {f : Flag} (hf : f.takesValue = true) {α : Type} {read : ValueReader α}
    {put : α → Config → Config}
    (hread : ∀ text, (read text).map (put · c) = (f.read text).map (c.setField f)) :
    s.put f read put c = s.set c f := by
  rw [Settings.put, set, resolve, given?, if_pos hf]
  cases s.value? f with
  | none => exact congrArg Except.ok (c.setField_field f).symm
  | some text => exact hread text

theorem set_skipBuild (s : Settings) (c : Config) :
    s.set c .skipBuild = .ok (if s.has .skipBuild then { c with build := [] } else c) := by
  rw [set, resolve, given?, if_neg (by decide)]
  cases s.has .skipBuild <;> rfl

/-- The file of the configuration and the dry run set no field. -/
theorem set_of_unit {f : Flag} (hf : f = .config ∨ f = .dryRun) (s : Settings) (c : Config) :
    s.set c f = .ok c := by
  have hread (text : String) : (f.read text).map (c.setField f) = .ok c := by
    rcases hf with rfl | rfl <;> rfl
  rw [set, resolve]
  cases s.given? f with
  | none => exact congrArg Except.ok (c.setField_field f)
  | some text => exact hread text

/-! ### All flags -/

/-- A row of steps goes on with equal steps. -/
theorem bind_eq_foldlM {x : Except Failure Config} {next : Config → Except Failure Config}
    {f : Flag} {fs : List Flag} (hx : x = s.set c f) (hnext : ∀ c, next c = fs.foldlM s.set c) :
    (x >>= next) = (f :: fs).foldlM s.set c := by
  rw [List.foldlM_cons, hx, funext hnext]

/-- A step that sets no field, in front of the others. -/
theorem foldlM_of_unit {f : Flag} (hf : f = .config ∨ f = .dryRun) (fs : List Flag) :
    (f :: fs).foldlM s.set c = fs.foldlM s.set c := by
  rw [List.foldlM_cons, set_of_unit hf]
  rfl

/-- The time limit is the last value that is put in. -/
theorem put_timeout (s : Settings) (c : Config) :
    s.put .timeout (readNumber .timeout Number.readCount)
      (fun v c => { c with timeoutSeconds := some v }) c =
    [Flag.timeout, .dryRun].foldlM s.set c := by
  have hread (text : String) :
      (readNumber .timeout Number.readCount text).map (fun v => c.setField .timeout (some v)) =
        (Flag.timeout.read text).map (c.setField .timeout) := by
    dsimp only [Flag.read]
    cases readNumber .timeout Number.readCount text <;> rfl
  refine (put_eq_set rfl hread).trans ?_
  rw [List.foldlM_cons]
  cases s.set c .timeout with
  | error e => rfl
  | ok c => exact (foldlM_of_unit (.inr rfl) []).symm

/-- **The values are put in one flag after the other.** -/
theorem override_eq_foldlM (s : Settings) (c : Config) :
    s.override c = Flag.all.foldlM s.set c := by
  rw [Flag.all, foldlM_of_unit (.inl rfl), override]
  refine bind_eq_foldlM (put_eq_set rfl fun _ => rfl) fun c => ?_
  rw [List.foldlM_cons, set_skipBuild]
  -- from the benchmark to the number of runs in flight
  iterate 11 refine bind_eq_foldlM (put_eq_set rfl fun _ => rfl) fun c => ?_
  exact put_timeout s c

/-- What is over a configuration depends on the field of the flag only. -/
theorem resolve_congr {f : Flag} (h : c.field f = c'.field f) : s.resolve c f = s.resolve c' f := by
  rw [resolve, resolve, h]

theorem resolve_eq_error_iff {f : Flag} {e : Failure} :
    s.resolve c f = .error e ↔ s.fault? f = some e := by
  rw [resolve, fault?]
  cases s.given? f with
  | none => simp
  | some text => cases h : f.read text <;> simp [h]

/-- **What comes of a row of steps that succeeds.** Each flag of the row sets its field, and the
other fields stay. -/
theorem foldlM_set_eq_ok_iff {fs : List Flag} (hfs : fs.Nodup) :
    fs.foldlM s.set c = .ok c' ↔
      (∀ f ∈ fs, s.resolve c f = .ok (c'.field f)) ∧ ∀ f, f ∉ fs → c'.field f = c.field f := by
  induction fs generalizing c with
  | nil =>
    constructor
    · intro h
      cases h
      simp
    · rintro ⟨-, h⟩
      exact congrArg Except.ok (Config.ext_field fun f => (h f List.not_mem_nil).symm)
  | cons f fs ih =>
    obtain ⟨hf, hfs⟩ := List.nodup_cons.1 hfs
    have hresolve (v : f.Field) {g : Flag} (hg : g ∈ fs) :
        s.resolve (c.setField f v) g = s.resolve c g :=
      resolve_congr (Config.field_setField_of_ne (ne_of_mem_of_not_mem hg hf) v)
    rw [List.foldlM_cons]
    constructor
    · intro h
      obtain ⟨next, hset, hlater⟩ := exists_of_bind_eq_ok h
      obtain ⟨v, hv, rfl⟩ := exists_of_map_eq_ok hset
      obtain ⟨hin, hout⟩ := (ih hfs).1 hlater
      refine ⟨fun g hg => ?_, fun g hg => ?_⟩
      · rcases List.mem_cons.1 hg with rfl | hg
        · rw [hout g hf, Config.field_setField_self, hv]
        · rw [← hresolve v hg, hin g hg]
      · rw [List.mem_cons, not_or] at hg
        rw [hout g hg.2, Config.field_setField_of_ne hg.1]
    · rintro ⟨hin, hout⟩
      have hset : s.set c f = .ok (c.setField f (c'.field f)) := by
        rw [set, hin f List.mem_cons_self]
        rfl
      rw [hset]
      refine (ih hfs).2 ⟨fun g hg => ?_, fun g hg => ?_⟩
      · rw [hresolve _ hg, hin g (List.mem_cons_of_mem f hg)]
      · by_cases hgf : g = f
        · subst hgf
          exact (Config.field_setField_self _).symm
        · rw [Config.field_setField_of_ne hgf, hout g (by simp [hgf, hg])]

/-- **A row of steps fails with the first fault in it.** -/
theorem foldlM_set_eq_error_iff {fs : List Flag} {e : Failure} :
    fs.foldlM s.set c = .error e ↔ fs.findSome? s.fault? = some e := by
  induction fs generalizing c with
  | nil => constructor <;> intro h <;> cases h
  | cons f fs ih =>
    rw [List.findSome?_cons, List.foldlM_cons, set]
    cases hresolve : s.resolve c f with
    | error e' =>
      rw [resolve_eq_error_iff.1 hresolve]
      exact ⟨fun h => congrArg some (Except.error.inj h),
        fun h => congrArg Except.error (Option.some.inj h)⟩
    | ok v =>
      have hnone : s.fault? f = none := by
        rw [Option.eq_none_iff_forall_ne_some]
        intro e' he
        cases hresolve.symm.trans (resolve_eq_error_iff.2 he)
      rw [hnone]
      exact ih

/-- **The values of settings over a configuration.** -/
theorem override_eq_ok_iff : s.override c = .ok c' ↔ ∀ f, s.resolve c f = .ok (c'.field f) := by
  rw [override_eq_foldlM, foldlM_set_eq_ok_iff Flag.nodup_all]
  exact ⟨fun h f => h.1 f f.mem_all, fun h => ⟨fun f _ => h f, fun f hf => absurd f.mem_all hf⟩⟩

/-- The flags whose texts may be at fault, in the order in which they are looked at. -/
def readFlags : List Flag :=
  [.port, .servers, .clients, .ratios, .parallel, .timeout]

/-- **Settings fail with the first text that cannot be read.** -/
theorem override_eq_error_iff {e : Failure} :
    s.override c = .error e ↔ readFlags.findSome? s.fault? = some e := by
  have hnone {f : Flag} (hf : f ∉ readFlags) : s.fault? f = none := by
    rw [fault?]
    cases s.given? f with
    | none => rfl
    | some text => cases f <;> first | rfl | exact absurd (by decide) hf
  have hkeep (fs : List Flag) :
      fs.findSome? s.fault? = (fs.filter (· ∈ readFlags)).findSome? s.fault? := by
    induction fs with
    | nil => rfl
    | cons f fs ih =>
      by_cases hf : f ∈ readFlags
      · rw [List.filter_cons_of_pos (by simpa using hf), List.findSome?_cons, List.findSome?_cons,
          ih]
      · rw [List.filter_cons_of_neg (by simpa using hf), List.findSome?_cons, hnone hf, ih]
  have hfilter : Flag.all.filter (· ∈ readFlags) = readFlags := by decide
  rw [override_eq_foldlM, foldlM_set_eq_error_iff, hkeep, hfilter]

end CommandLine.Settings

end BenchSweep
