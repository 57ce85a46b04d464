import BenchSweep.Benchmark

/-!
# The acts of a script

A script is a tree of requests. Going down the tree one answer at a time is an *act* after another:
a request, with the answer that it got. `Script.Reaches s acts t` says that the acts lead from `s`
to the subtree `t`, and `Script.Ends s acts a` that they lead to a leaf. Nothing is assumed about
the answers, so what is shown of all acts of a script is shown of all surroundings that it can meet.

## Why scripts are trees

A sweep depends on answers that are given from outside, and any order of the ends of commands may
come. With a script as a tree, each node a request and each branch an answer, all runs of a sweep
are the paths in one object. `Script.Reaches` has one constructor for each kind of request, so what
holds along a run is an induction on the acts, with the request in front.

## Scope

The acts of a script are those that its requests allow, whether or not some machine would give these
answers. So a statement about all acts covers machines that fail in any way, and
`Script.exists_ends` is why such a statement is never empty.

## Main definitions

* `Act`: a request that was made, with its answer.
* `Script.Reaches`, `Script.Ends`: the acts that a script can do.

## Main results

* `Script.ends_bind_iff`: the acts of two scripts in sequence are those of the first, then those
  of the second.
* `Script.exists_ends`: a script can always be brought to an end.
-/

namespace BenchSweep

/-- A request that was made, with the answer that it got. -/
inductive Act where
  | told (event : Event)
  | launched (command : Command) (limit : Option Duration) (refusal : Option SystemError)
  /-- Of the commands in flight, the one with this number ended. -/
  | awaited (number : Nat) (behaviour : Behaviour)
  | cancelled
  | probed (path : String) (found : Bool)
  | saved (table : Table) (path : String) (answer : Except Failure Unit)

namespace Act

/-- Whether an act is more than the telling of an event. -/
def isExternal : Act → Bool
  | told _ => false
  | _ => true

/-- Whether an act starts, awaits or kills commands, which may then change any file. -/
def isCommand : Act → Bool
  | launched .. | awaited .. | cancelled => true
  | _ => false

/-- Whether an act is a save. -/
def isSave : Act → Bool
  | saved .. => true
  | _ => false

/-- The event that an act tells of, if it is one for the user. -/
def info? : Act → Option Event
  | told event => if event.level = .info then some event else none
  | _ => none

end Act

namespace Script

variable {α β : Type}

/-- The acts lead from a script to what is left of it. -/
inductive Reaches : Script α → List Act → Script α → Prop
  | refl (s : Script α) : Reaches s [] s
  | note {event : Event} {next t : Script α} {acts : List Act} (h : Reaches next acts t) :
      Reaches (.note event next) (.told event :: acts) t
  | launch {command : Command} {limit : Option Duration} {next : Option SystemError → Script α}
      {t : Script α} {acts : List Act} (refusal : Option SystemError)
      (h : Reaches (next refusal) acts t) :
      Reaches (.launch command limit next) (.launched command limit refusal :: acts) t
  | await {others : Nat} {next : Fin (others + 1) → Behaviour → Script α} {t : Script α}
      {acts : List Act} (i : Fin (others + 1)) (b : Behaviour) (h : Reaches (next i b) acts t) :
      Reaches (.await others next) (.awaited i b :: acts) t
  | cancel {next t : Script α} {acts : List Act} (h : Reaches next acts t) :
      Reaches (.cancel next) (.cancelled :: acts) t
  | probe {path : String} {next : Bool → Script α} {t : Script α} {acts : List Act} (found : Bool)
      (h : Reaches (next found) acts t) : Reaches (.probe path next) (.probed path found :: acts) t
  | save {table : Table} {path : String} {next : Except Failure Unit → Script α} {t : Script α}
      {acts : List Act} (answer : Except Failure Unit) (h : Reaches (next answer) acts t) :
      Reaches (.save table path next) (.saved table path answer :: acts) t

/-- The acts lead a script to its end, with a result. -/
def Ends (s : Script α) (acts : List Act) (a : α) : Prop :=
  s.Reaches acts (.done a)

theorem Reaches.trans {s t u : Script α} {acts more : List Act} (h : s.Reaches acts t)
    (h' : t.Reaches more u) : s.Reaches (acts ++ more) u := by
  induction h with
  | refl => exact h'
  | note _ ih => exact .note (ih h')
  | launch refusal _ ih => exact .launch refusal (ih h')
  | await i b _ ih => exact .await i b (ih h')
  | cancel _ ih => exact .cancel (ih h')
  | probe found _ ih => exact .probe found (ih h')
  | save answer _ ih => exact .save answer (ih h')

/-- A script can always be brought to an end. -/
theorem exists_ends (s : Script α) : ∃ acts a, s.Ends acts a := by
  induction s with
  | done a => exact ⟨[], a, .refl _⟩
  | note event next ih =>
    obtain ⟨acts, a, h⟩ := ih
    exact ⟨_, a, .note h⟩
  | launch command limit next ih =>
    obtain ⟨acts, a, h⟩ := ih none
    exact ⟨_, a, .launch none h⟩
  | await others next ih =>
    obtain ⟨acts, a, h⟩ := ih 0 .overran
    exact ⟨_, a, .await 0 .overran h⟩
  | cancel next ih =>
    obtain ⟨acts, a, h⟩ := ih
    exact ⟨_, a, .cancel h⟩
  | probe path next ih =>
    obtain ⟨acts, a, h⟩ := ih true
    exact ⟨_, a, .probe true h⟩
  | save table path next ih =>
    obtain ⟨acts, a, h⟩ := ih (.ok ())
    exact ⟨_, a, .save (.ok ()) h⟩

/-! ### The first act -/

@[simp] theorem reaches_nil_iff {s t : Script α} : s.Reaches [] t ↔ s = t := by
  constructor
  · intro h
    cases h
    rfl
  · rintro rfl
    exact .refl s

@[simp] theorem ends_done_iff {a b : α} {acts : List Act} :
    (done a).Ends acts b ↔ acts = [] ∧ a = b := by
  constructor
  · intro h
    cases h
    exact ⟨rfl, rfl⟩
  · rintro ⟨rfl, rfl⟩
    exact .refl _

theorem ends_note_iff {event : Event} {next : Script α} {acts : List Act} {a : α} :
    (note event next).Ends acts a ↔ ∃ rest, acts = .told event :: rest ∧ next.Ends rest a := by
  constructor
  · intro h
    cases h with
    | note h => exact ⟨_, rfl, h⟩
  · rintro ⟨rest, rfl, h⟩
    exact .note h

theorem ends_launch_iff {command : Command} {limit : Option Duration}
    {next : Option SystemError → Script α} {acts : List Act} {a : α} :
    (launch command limit next).Ends acts a ↔
      ∃ refusal rest, acts = .launched command limit refusal :: rest ∧
        (next refusal).Ends rest a := by
  constructor
  · intro h
    cases h with
    | launch refusal h => exact ⟨refusal, _, rfl, h⟩
  · rintro ⟨refusal, rest, rfl, h⟩
    exact .launch refusal h

theorem ends_await_iff {others : Nat} {next : Fin (others + 1) → Behaviour → Script α}
    {acts : List Act} {a : α} :
    (await others next).Ends acts a ↔
      ∃ (i : Fin (others + 1)) (b : Behaviour) (rest : List Act),
        acts = .awaited i b :: rest ∧ (next i b).Ends rest a := by
  constructor
  · intro h
    cases h with
    | await i b h => exact ⟨i, b, _, rfl, h⟩
  · rintro ⟨i, b, rest, rfl, h⟩
    exact .await i b h

theorem ends_cancel_iff {next : Script α} {acts : List Act} {a : α} :
    (cancel next).Ends acts a ↔ ∃ rest, acts = .cancelled :: rest ∧ next.Ends rest a := by
  constructor
  · intro h
    cases h with
    | cancel h => exact ⟨_, rfl, h⟩
  · rintro ⟨rest, rfl, h⟩
    exact .cancel h

theorem ends_probe_iff {path : String} {next : Bool → Script α} {acts : List Act} {a : α} :
    (probe path next).Ends acts a ↔
      ∃ found rest, acts = .probed path found :: rest ∧ (next found).Ends rest a := by
  constructor
  · intro h
    cases h with
    | probe found h => exact ⟨found, _, rfl, h⟩
  · rintro ⟨found, rest, rfl, h⟩
    exact .probe found h

theorem ends_save_iff {table : Table} {path : String} {next : Except Failure Unit → Script α}
    {acts : List Act} {a : α} :
    (save table path next).Ends acts a ↔
      ∃ answer rest, acts = .saved table path answer :: rest ∧ (next answer).Ends rest a := by
  constructor
  · intro h
    cases h with
    | save answer h => exact ⟨answer, _, rfl, h⟩
  · rintro ⟨answer, rest, rfl, h⟩
    exact .save answer h

/-! ### Scripts in sequence -/

theorem Reaches.bind {s t : Script α} {acts : List Act} (h : s.Reaches acts t)
    (f : α → Script β) : (s.bind f).Reaches acts (t.bind f) := by
  induction h with
  | refl => exact .refl _
  | note _ ih => exact .note ih
  | launch refusal _ ih => exact .launch refusal ih
  | await i b _ ih => exact .await i b ih
  | cancel _ ih => exact .cancel ih
  | probe found _ ih => exact .probe found ih
  | save answer _ ih => exact .save answer ih

/-- The acts of two scripts in sequence are those of the first, then those of the second. -/
theorem ends_bind_iff {s : Script α} {f : α → Script β} {acts : List Act} {b : β} :
    (s.bind f).Ends acts b ↔
      ∃ a acts₁ acts₂, acts = acts₁ ++ acts₂ ∧ s.Ends acts₁ a ∧ (f a).Ends acts₂ b := by
  constructor
  · intro h
    induction s generalizing acts with
    | done a => exact ⟨a, [], acts, rfl, .refl _, h⟩
    | note event next ih =>
      obtain ⟨rest, rfl, hnext⟩ := ends_note_iff.1 h
      obtain ⟨a, acts₁, acts₂, rfl, h₁, h₂⟩ := ih hnext
      exact ⟨a, _, acts₂, rfl, .note h₁, h₂⟩
    | launch command limit next ih =>
      obtain ⟨refusal, rest, rfl, hnext⟩ := ends_launch_iff.1 h
      obtain ⟨a, acts₁, acts₂, rfl, h₁, h₂⟩ := ih refusal hnext
      exact ⟨a, _, acts₂, rfl, .launch refusal h₁, h₂⟩
    | await others next ih =>
      obtain ⟨i, behaviour, rest, rfl, hnext⟩ := ends_await_iff.1 h
      obtain ⟨a, acts₁, acts₂, rfl, h₁, h₂⟩ := ih i behaviour hnext
      exact ⟨a, _, acts₂, rfl, .await i behaviour h₁, h₂⟩
    | cancel next ih =>
      obtain ⟨rest, rfl, hnext⟩ := ends_cancel_iff.1 h
      obtain ⟨a, acts₁, acts₂, rfl, h₁, h₂⟩ := ih hnext
      exact ⟨a, _, acts₂, rfl, .cancel h₁, h₂⟩
    | probe path next ih =>
      obtain ⟨found, rest, rfl, hnext⟩ := ends_probe_iff.1 h
      obtain ⟨a, acts₁, acts₂, rfl, h₁, h₂⟩ := ih found hnext
      exact ⟨a, _, acts₂, rfl, .probe found h₁, h₂⟩
    | save table path next ih =>
      obtain ⟨answer, rest, rfl, hnext⟩ := ends_save_iff.1 h
      obtain ⟨a, acts₁, acts₂, rfl, h₁, h₂⟩ := ih answer hnext
      exact ⟨a, _, acts₂, rfl, .save answer h₁, h₂⟩
  · rintro ⟨a, acts₁, acts₂, rfl, h₁, h₂⟩
    exact (Reaches.bind h₁ f).trans h₂

theorem bind_assoc {γ : Type} (s : Script α) (f : α → Script β) (g : β → Script γ) :
    (s.bind f).bind g = s.bind fun a => (f a).bind g := by
  induction s with
  | done a => rfl
  | note event next ih => exact congrArg _ ih
  | launch command limit next ih => exact congrArg _ (funext ih)
  | await others next ih => exact congrArg _ (funext fun i => funext fun b => ih i b)
  | cancel next ih => exact congrArg _ ih
  | probe path next ih => exact congrArg _ (funext ih)
  | save table path next ih => exact congrArg _ (funext ih)

theorem tellAll_bind (events : List Event) (s : Script α) (f : α → Script β) :
    (tellAll events s).bind f = tellAll events (s.bind f) := by
  induction events with
  | nil => rfl
  | cons event events ih => exact congrArg _ ih

theorem bind_eq (s : Script α) (f : α → Script β) : (s >>= f) = s.bind f := rfl

/-- The telling of events comes before what follows it. -/
theorem ends_tellAll_iff {events : List Event} {next : Script α} {acts : List Act} {a : α} :
    (tellAll events next).Ends acts a ↔
      ∃ rest, acts = events.map .told ++ rest ∧ next.Ends rest a := by
  induction events generalizing acts with
  | nil => exact ⟨fun h => ⟨acts, rfl, h⟩, fun ⟨_, h, hn⟩ => h ▸ hn⟩
  | cons event events ih =>
    rw [tellAll, List.foldr_cons, ends_note_iff]
    constructor
    · rintro ⟨rest, rfl, h⟩
      obtain ⟨rest, rfl, hnext⟩ := ih.1 h
      exact ⟨rest, rfl, hnext⟩
    · rintro ⟨rest, rfl, h⟩
      exact ⟨_, rfl, ih.2 ⟨rest, rfl, h⟩⟩

end Script

/-! ### Attempts -/

namespace Attempt

variable {α β : Type}

theorem run_bind (x : Attempt α) (f : α → Attempt β) :
    (x >>= f).run = x.run.bind fun
      | .ok a => (f a).run
      | .error e => .done (.error e) := by
  rw [ExceptT.run_bind, Script.bind_eq]
  congr 1
  funext r
  cases r <;> rfl

/-- The telling of an event inside an attempt. -/
theorem run_tell (level : Level) (topic : Topic) (message : String) :
    (Script.tell level topic message : Attempt Unit).run =
      .note ⟨level, topic, message⟩ (.done (.ok ())) := rfl

/-- An attempt in sequence goes on with the second part only after the first has succeeded. -/
theorem ends_bind_iff {x : Attempt α} {f : α → Attempt β} {acts : List Act}
    {r : Except Failure β} :
    (x >>= f).run.Ends acts r ↔
      (∃ e, x.run.Ends acts (.error e) ∧ r = .error e) ∨
        ∃ a acts₁ acts₂, acts = acts₁ ++ acts₂ ∧ x.run.Ends acts₁ (.ok a) ∧
          (f a).run.Ends acts₂ r := by
  rw [run_bind, Script.ends_bind_iff]
  constructor
  · rintro ⟨a | a, acts₁, acts₂, rfl, h₁, h₂⟩
    · obtain ⟨rfl, rfl⟩ := Script.ends_done_iff.1 h₂
      exact .inl ⟨a, by simpa using h₁, rfl⟩
    · exact .inr ⟨a, acts₁, acts₂, rfl, h₁, h₂⟩
  · rintro (⟨e, h, rfl⟩ | ⟨a, acts₁, acts₂, rfl, h₁, h₂⟩)
    · exact ⟨.error e, acts, [], by simp, h, Script.ends_done_iff.2 ⟨rfl, rfl⟩⟩
    · exact ⟨.ok a, acts₁, acts₂, rfl, h₁, h₂⟩

end Attempt

end BenchSweep
