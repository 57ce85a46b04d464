import BenchSweep.Proofs.Script.Acts

/-!
# Scripts that follow command lines

A script follows a list of command lines if the commands that it launches are those of the lines, in
order and from the first on, whatever its surroundings answer. So the commands of a script that is
cut short are those of the first lines. What is said of a script in sequence is said of its parts:
the second one follows the lines that the first one leaves.

## Why lines are used up

To say in which order commands are launched, a list of lines is passed along a script, and every
launch takes the first one. What the script leaves belongs to what comes after it, so that the lines
of a sweep can be dealt out to its build steps and its points by `Script.follows_bind`. A launch
that is refused takes its line as well: it was asked for.

## Why there is a strict form

A sweep that runs one point at a time starts nothing after a command that was refused, and then even
the commands that did start are the first lines. With several at a time this fails, because others
may be started before the refusal is noticed. `strict` selects the first case, and both are shown by
one proof.

## Main definitions

* `Command.line`: the words of a command.
* `Act.command?`, `Act.started?`: the command of a launch, and that of a launch that is not refused.
* `Script.Follows`: a script follows some lines, and what it then leaves.
* `Leaves`: what an attempt leaves that succeeds.

## Main results

* `Script.follows_bind`, `Attempt.follows_bind`: scripts and attempts in sequence.
* `Script.Reaches.prefix_of_follows`: the commands of a script that is cut short.
-/

namespace BenchSweep

/-- The words of a command: its program and its arguments. -/
def Command.line (c : Command) : List String :=
  c.program :: c.args

namespace Act

/-- The command of a launch. -/
def command? : Act → Option Command
  | launched command _ _ => some command
  | _ => none

/-- The command of a launch that was not refused. -/
def started? : Act → Option Command
  | launched command _ none => some command
  | _ => none

end Act

namespace Script

variable {α β : Type}

/-- The commands that a script launches in a directory are those of the first lines, in order, and
`post` is said of its result and of the lines that are left. If the script is `strict`, it launches
nothing after a command that was refused. -/
def Follows (dir : String) (strict : Bool) (post : α → List (List String) → Prop) :
    Script α → List (List String) → Prop
  | .done a, lines => post a lines
  | .note _ next, lines => next.Follows dir strict post lines
  | .launch command _ next, lines =>
    ∃ later, lines = command.line :: later ∧ command.dir = dir ∧
      (∀ e, (next (some e)).Follows dir strict post (if strict then [] else later)) ∧
      (next none).Follows dir strict post later
  | .await _ next, lines => ∀ i b, (next i b).Follows dir strict post lines
  | .cancel next, lines => next.Follows dir strict post lines
  | .probe _ next, lines => ∀ found, (next found).Follows dir strict post lines
  | .save _ _ next, lines => ∀ answer, (next answer).Follows dir strict post lines

variable {dir : String} {strict : Bool} {lines : List (List String)}

/-- Scripts in sequence: the second one follows the lines that the first one leaves. -/
theorem follows_bind {post : β → List (List String) → Prop} {s : Script α} {f : α → Script β} :
    (s.bind f).Follows dir strict post lines ↔
      s.Follows dir strict (fun a later => (f a).Follows dir strict post later) lines := by
  induction s generalizing lines with
  | done a => rfl
  | note event next ih => exact ih
  | launch command limit next ih =>
    refine exists_congr fun later => and_congr_right fun _ => and_congr_right fun _ => ?_
    exact and_congr (forall_congr' fun e => ih (some e)) (ih none)
  | await others next ih => exact forall_congr' fun i => forall_congr' fun b => ih i b
  | cancel next ih => exact ih
  | probe path next ih => exact forall_congr' fun found => ih found
  | save table path next ih => exact forall_congr' fun answer => ih answer

theorem Follows.mono {post post' : α → List (List String) → Prop} {s : Script α}
    (h : s.Follows dir strict post lines) (hpost : ∀ a later, post a later → post' a later) :
    s.Follows dir strict post' lines := by
  induction s generalizing lines with
  | done a => exact hpost a lines h
  | note event next ih => exact ih h
  | launch command limit next ih =>
    obtain ⟨later, hlines, hdir, hrefused, hstarted⟩ := h
    exact ⟨later, hlines, hdir, fun e => ih _ (hrefused e), ih _ hstarted⟩
  | await others next ih => exact fun i b => ih i b (h i b)
  | cancel next ih => exact ih h
  | probe path next ih => exact fun found => ih found (h found)
  | save table path next ih => exact fun answer => ih answer (h answer)

theorem follows_tellAll {post : α → List (List String) → Prop} {events : List Event}
    {next : Script α} :
    (tellAll events next).Follows dir strict post lines ↔ next.Follows dir strict post lines := by
  induction events with
  | nil => rfl
  | cons event events ih => exact ih

/-- The commands of a script that is cut short are those of the first lines, and so are those that
were not refused, if the script is strict. -/
theorem Reaches.prefix_of_follows {post : α → List (List String) → Prop} {s t : Script α}
    {acts : List Act} (h : s.Reaches acts t) (hs : s.Follows dir strict post lines) :
    (acts.filterMap Act.command?).map Command.line <+: lines ∧
      (∀ command ∈ acts.filterMap Act.command?, command.dir = dir) ∧
      (strict = true → (acts.filterMap Act.started?).map Command.line <+: lines) := by
  induction h generalizing lines with
  | refl => simp
  | note _ ih => exact ih hs
  | @launch command limit next t acts refusal _ ih =>
    obtain ⟨later, rfl, rfl, hrefused, hstarted⟩ := hs
    cases refusal with
    | none =>
      obtain ⟨hcommands, hdir, hstart⟩ := ih hstarted
      simp only [List.filterMap_cons, Act.command?, Act.started?, List.map_cons,
        List.prefix_cons_inj, List.forall_mem_cons]
      exact ⟨hcommands, ⟨trivial, hdir⟩, hstart⟩
    | some e =>
      obtain ⟨hcommands, hdir, hstart⟩ := ih (hrefused e)
      have hlater : (if strict then [] else later) <+: later := by
        cases strict <;> simp
      simp only [List.filterMap_cons, Act.command?, Act.started?, List.map_cons,
        List.prefix_cons_inj, List.forall_mem_cons]
      refine ⟨hcommands.trans hlater, ⟨trivial, hdir⟩, fun hstrict => ?_⟩
      -- after the refusal there is nothing left to follow
      have hnone := hstart hstrict
      rw [if_pos hstrict] at hnone
      rw [List.prefix_nil.1 hnone]
      exact List.nil_prefix
  | await i b _ ih => exact ih (hs i b)
  | cancel _ ih => exact ih hs
  | probe found _ ih => exact ih (hs found)
  | save answer _ ih => exact ih (hs answer)

end Script

/-- An attempt that succeeds leaves some lines, and one that fails may leave any. -/
def Leaves {α : Type} (later : List (List String)) :
    Except Failure α → List (List String) → Prop
  | .ok _, lines => lines = later
  | .error _, _ => True

/-- Attempts in sequence: the second one is there only if the first one succeeds. -/
theorem Attempt.follows_bind {α β : Type} {dir : String} {strict : Bool}
    {lines later last : List (List String)} {x : Attempt α} {f : α → Attempt β}
    (hx : x.run.Follows dir strict (Leaves later) lines)
    (hf : ∀ a, (f a).run.Follows dir strict (Leaves last) later) :
    (x >>= f).run.Follows dir strict (Leaves last) lines := by
  rw [run_bind, Script.follows_bind]
  refine hx.mono fun r rest hr => ?_
  cases r with
  | ok a =>
    obtain rfl : rest = later := hr
    exact hf a
  | error e => trivial

end BenchSweep
