import BenchSweep.CommandLine.Settings
import BenchSweep.Proofs.Except
import Mathlib.Data.List.Nodup
import Mathlib.Data.List.Perm.Basic

/-!
# The arguments of a command line

A command line is a row of flags, each with the value that stands beside it, and two dashes may
close it. Reading accepts exactly such rows, and what is read does not depend on the order of the
flags: a flag is told by its name, and no flag may be given twice.

## Why a flag may lack its value here

A command line may be wrong in more than one place, and a flag that is not known is reported even if
an earlier one lacks its value. So the row is read to its end first, and `Use.IsGiven` has a
constructor for a flag whose value is left out; `Settings.Accepted` rules it out afterwards,
together with flags that are given twice.

## Scope

A value is any text behind an equals sign, or a plain argument that follows. Whether it is a number
or a list, and which field it belongs to, is not asked before the whole row has been accepted.
Nothing is said of the message for arguments that are no row.

## Main definitions

* `Use.IsGiven`: the arguments that give a flag.
* `Settings.Accepted`: settings in which no flag is given twice or lacks its value.

## Main results

* `readUses_eq_ok_iff`: the rows of arguments that are read.
* `Settings.read_eq_ok_iff`: the command lines that are accepted.
-/

namespace BenchSweep.CommandLine

/-- The arguments that give a flag, with the value beside it. -/
inductive Use.IsGiven : Use → List String → Prop
  /-- A flag without a value; what an equals sign adds to it is left out. -/
  | bare {f : Flag} {arg : String} {value : Option String} (hf : f.takesValue = false)
      (harg : Shape.ofArg arg = .long f.name value) : IsGiven ⟨f, none⟩ [arg]
  /-- A flag with its value after an equals sign. -/
  | joined {f : Flag} {arg value : String} (hf : f.takesValue = true)
      (harg : Shape.ofArg arg = .long f.name (some value)) : IsGiven ⟨f, some value⟩ [arg]
  /-- A flag with its value in the next argument. -/
  | apart {f : Flag} {arg value : String} (hf : f.takesValue = true)
      (harg : Shape.ofArg arg = .long f.name none) (hvalue : Shape.ofArg value = .plain) :
      IsGiven ⟨f, some value⟩ [arg, value]
  /-- A flag whose value is left out. -/
  | lone {f : Flag} {arg : String} (hf : f.takesValue = true)
      (harg : Shape.ofArg arg = .long f.name none) : IsGiven ⟨f, none⟩ [arg]

/-- What may follow the flags: nothing, or two dashes. -/
def IsEnd (args : List String) : Prop :=
  args = [] ∨ ∃ arg, args = [arg] ∧ Shape.ofArg arg = .terminator

/-- Some arguments are a row: those of some flags, one after the other, and an end. -/
def IsRow (uses : List Use) (args : List String) : Prop :=
  ∃ groups last, args = groups.flatten ++ last ∧ List.Forall₂ Use.IsGiven uses groups ∧ IsEnd last

/-- The name by which a flag is found is its own. -/
theorem Flag.eq_name_of_ofName? {name : String} {f : Flag} (h : ofName? name = some f) :
    name = f.name := by
  have hname := List.find?_some (p := fun g : Flag => decide (g.name = name)) h
  exact (of_decide_eq_true hname).symm

/-- The arguments that give a flag start with its name. -/
theorem Use.IsGiven.exists_long {use : Use} {group : List String} (h : use.IsGiven group) :
    ∃ arg rest value, group = arg :: rest ∧ Shape.ofArg arg = .long use.flag.name value := by
  cases h with
  | bare hf harg => exact ⟨_, _, _, rfl, harg⟩
  | joined hf harg => exact ⟨_, _, _, rfl, harg⟩
  | apart hf harg hvalue => exact ⟨_, _, _, rfl, harg⟩
  | lone hf harg => exact ⟨_, _, _, rfl, harg⟩

/-- No row of flags starts with a plain argument, so a value that is left out is not found in what
follows. -/
theorem ofArg_ne_plain_of_flatten {groups : List (List String)} {uses : List Use}
    (h : List.Forall₂ Use.IsGiven uses groups) {last : List String} (hlast : IsEnd last)
    {next : String} {later : List String} (he : groups.flatten ++ last = next :: later) :
    Shape.ofArg next ≠ .plain := by
  cases h with
  | nil =>
    rcases hlast with rfl | ⟨arg, rfl, harg⟩
    · cases he
    · cases he
      rw [harg]
      exact Shape.noConfusion
  | cons hgiven _ =>
    obtain ⟨arg, rest, value, rfl, harg⟩ := hgiven.exists_long
    cases he
    rw [harg]
    exact Shape.noConfusion

theorem IsRow.nil : IsRow [] [] :=
  ⟨[], [], rfl, .nil, .inl rfl⟩

theorem IsRow.cons {use : Use} {group : List String} {uses : List Use} {args : List String}
    (h : use.IsGiven group) (hrow : IsRow uses args) : IsRow (use :: uses) (group ++ args) := by
  obtain ⟨groups, last, rfl, hgroups, hlast⟩ := hrow
  exact ⟨group :: groups, last, (List.append_assoc ..).symm, .cons h hgroups, hlast⟩

/-- One flag is read from the front of a row. -/
theorem readUses_append {use : Use} {group : List String} (h : use.IsGiven group)
    {args : List String} (hnext : ∀ next later, args = next :: later → Shape.ofArg next ≠ .plain) :
    readUses (group ++ args) = (readUses args).map (use :: ·) := by
  cases h with
  | bare hf harg =>
    rw [List.singleton_append, readUses.eq_def]
    simp [harg, Flag.ofName?_name, hf]
  | joined hf harg =>
    rw [List.singleton_append, readUses.eq_def]
    simp [harg, Flag.ofName?_name, hf]
  | apart hf harg hvalue =>
    rw [List.cons_append, List.singleton_append, readUses.eq_def]
    simp [harg, Flag.ofName?_name, hf, hvalue]
  | lone hf harg =>
    rw [List.singleton_append, readUses.eq_def]
    cases args with
    | nil => simp [harg, Flag.ofName?_name, hf, readUses, Except.map]
    | cons next later => simp [harg, Flag.ofName?_name, hf, hnext next later rfl]

/-- **The rows of arguments that are read.** -/
theorem readUses_eq_ok_iff {args : List String} {uses : List Use} :
    readUses args = .ok uses ↔ IsRow uses args := by
  constructor
  · intro h
    fun_induction readUses args generalizing uses with
    | case1 =>
      cases h
      exact ⟨[], [], rfl, .nil, .inl rfl⟩
    | case2 | case3 | case5 | case6 => cases h
    | case4 arg harg =>
      cases h
      exact ⟨[], [arg], rfl, .nil, .inr ⟨arg, rfl, harg⟩⟩
    | case7 arg rest name value harg f hname hf ih =>
      obtain ⟨later, hlater, rfl⟩ := exists_of_map_eq_ok h
      obtain rfl := Flag.eq_name_of_ofName? hname
      exact IsRow.cons (.bare (by simpa using hf) harg) (ih hlater)
    | case8 arg name f hname hf value rest harg ih =>
      obtain ⟨later, hlater, rfl⟩ := exists_of_map_eq_ok h
      obtain rfl := Flag.eq_name_of_ofName? hname
      exact IsRow.cons (.joined (by simpa using hf) harg) (ih hlater)
    | case9 arg name f hname hf harg =>
      cases h
      obtain rfl := Flag.eq_name_of_ofName? hname
      exact IsRow.cons (.lone (by simpa using hf) harg) .nil
    | case10 arg name f hname hf value rest hvalue harg ih =>
      obtain ⟨later, hlater, rfl⟩ := exists_of_map_eq_ok h
      obtain rfl := Flag.eq_name_of_ofName? hname
      exact IsRow.cons (.apart (by simpa using hf) harg hvalue) (ih hlater)
    | case11 arg name f hname hf next rest hnext harg ih =>
      obtain ⟨later, hlater, rfl⟩ := exists_of_map_eq_ok h
      obtain rfl := Flag.eq_name_of_ofName? hname
      exact IsRow.cons (.lone (by simpa using hf) harg) (ih hlater)
  · rintro ⟨groups, last, rfl, hgroups, hlast⟩
    induction hgroups with
    | nil =>
      rcases hlast with rfl | ⟨arg, rfl, harg⟩
      · rfl
      · simp [readUses, harg]
    | cons hgiven hlater ih =>
      rw [List.flatten_cons, List.append_assoc, readUses_append hgiven, ih]
      · rfl
      · intro next later he
        exact ofArg_ne_plain_of_flatten hlater hlast he

/-! ### Settings that are accepted -/

namespace Settings

variable {s : Settings}

/-- No flag is given twice, and each that is given has the value that it takes. -/
structure Accepted (s : Settings) : Prop where
  nodup : (s.uses.map Use.flag).Nodup
  hasValue : ∀ use ∈ s.uses, s.lacksValue use.flag = false

theorem flagError?_eq_none_iff {f : Flag} :
    s.flagError? f = none ↔ s.lacksValue f = false ∧ (s.uses.map Use.flag).count f ≤ 1 := by
  have hcount : s.uses.countP (·.flag = f) = (s.uses.map Use.flag).count f := by
    rw [List.count_eq_countP, List.countP_map]
    rfl
  rw [flagError?, hcount]
  cases s.lacksValue f <;> simp

/-- The last flag is looked at first, but what is accepted does not depend on that. -/
theorem error?_eq_none_iff : s.error? = none ↔ s.Accepted := by
  have hall : (∀ use ∈ s.uses, s.flagError? use.flag = none) ↔ s.Accepted := by
    simp only [flagError?_eq_none_iff]
    constructor
    · intro h
      refine ⟨List.nodup_iff_count_le_one.2 fun f => ?_, fun use huse => (h use huse).1⟩
      by_cases hf : f ∈ s.uses.map Use.flag
      · obtain ⟨use, huse, rfl⟩ := List.mem_map.1 hf
        exact (h use huse).2
      · rw [List.count_eq_zero.2 hf]
        exact Nat.zero_le 1
    · intro h use huse
      exact ⟨h.hasValue use huse, List.nodup_iff_count_le_one.1 h.nodup _⟩
  rw [error?, ← hall]
  cases hlast : s.uses.getLast? with
  | none =>
    rw [List.getLast?_eq_none_iff] at hlast
    simp [hlast]
  | some last =>
    have hmem : last ∈ s.uses := List.mem_of_getLast? hlast
    dsimp only
    split
    next hlacks =>
      refine iff_of_false (by simp) fun h => ?_
      exact Bool.false_ne_true ((flagError?_eq_none_iff.1 (h last hmem)).1.symm.trans hlacks)
    next => exact List.findSome?_eq_none_iff

/-- **The command lines that are accepted.** -/
theorem read_eq_ok_iff {args : List String} {env : String → Option String} :
    read args env = .ok s ↔ IsRow s.uses args ∧ s.env = env ∧ s.Accepted := by
  rw [← readUses_eq_ok_iff, ← error?_eq_none_iff, read]
  obtain ⟨uses, values⟩ := s
  cases huses : readUses args with
  | error stop => simp
  | ok given =>
    dsimp only
    split
    next error herror =>
      refine iff_of_false (by simp) ?_
      rintro ⟨hgiven, rfl, hnone⟩
      cases hgiven
      exact Option.some_ne_none _ (herror.symm.trans hnone)
    next hnone =>
      constructor
      · intro h
        cases h
        exact ⟨rfl, rfl, hnone⟩
      · rintro ⟨hgiven, rfl, -⟩
        cases hgiven
        rfl

end Settings

end BenchSweep.CommandLine
