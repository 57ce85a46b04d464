import BenchSweep.Proofs.Disk.Entries
import BenchSweep.Proofs.Except
import BenchSweep.Proofs.Path.Names

/-!
# The places of a save

A save works at two places: that of its path and that of the temporary file. They are never the
same, whatever the path looks like, and nothing that a save does changes where the two paths lead.

## Why the places have to be told apart

A temporary path is made from a text, and it would be a disaster if it led to the place of the path
itself: the table would be written over the old one. The names differ in their ends, but a path may
end in dots, lead through other directories or be without a name. `Disk.ne_of_resolve_temporary`
covers them all, by the last name that is followed.

## Scope

A path denotes nothing where it cannot be resolved, and `Disk.node?` does not tell this from a place
without an entry. What the operations of a disk do is said here once, by what they give if they
succeed, so that no proof about saves opens them.

## Main definitions

* `Disk.node?`: what a path denotes, as it is seen by its location.

## Main results

* `Disk.ne_of_resolve_temporary`: a path and its temporary path lead to different locations.
* `Disk.create_eq_ok`, `Disk.rename_eq_ok`, `Disk.unlink_cases`: what the operations of a save do.
-/

namespace BenchSweep

open Text (Bytes)

namespace Disk

open BenchSweep.Path

variable {d d' : Disk} {here l l' : Location} {path : String}

/-! ### Two places -/

/-- Where names lead that end in an ordinary one. -/
theorem follow_concat_eq_ok {at_ : Location} {names : List String} {name : String}
    (hdot : name ≠ ".") (hup : name ≠ "..") (h : d.follow at_ (names ++ [name]) = .ok l) :
    ∃ parent, d.follow at_ names = .ok parent ∧ l = parent ++ [name] := by
  rw [follow_append] at h
  cases hp : d.follow at_ names with
  | error e =>
    rw [hp] at h
    cases h
  | ok parent =>
    rw [hp] at h
    dsimp only [follow] at h
    cases hs : d.step parent name with
    | error e =>
      rw [hs] at h
      cases h
    | ok next =>
      rw [hs] at h
      cases h
      obtain ⟨-, ⟨he, -⟩ | ⟨he, -⟩ | ⟨-, -, -, rfl⟩⟩ := step_eq_ok_iff.1 hs
      · exact absurd he hdot
      · exact absurd he hup
      · exact ⟨parent, rfl, rfl⟩

/-- Names of the same place lead nowhere else. -/
theorem eq_of_follow_dots {at_ : Location} {dots : List String} (hdots : ∀ dot ∈ dots, dot = ".")
    (h : d.follow at_ dots = .ok l) : l = at_ := by
  induction dots generalizing at_ with
  | nil => exact (Except.ok.inj h).symm
  | cons dot dots ih =>
    obtain rfl := hdots dot List.mem_cons_self
    rw [follow] at h
    cases hs : d.step at_ "." with
    | error e =>
      rw [hs] at h
      cases h
    | ok next =>
      rw [hs] at h
      obtain ⟨-, ⟨-, rfl⟩ | ⟨he, -⟩ | ⟨hne, -⟩⟩ := step_eq_ok_iff.1 hs
      · exact ih (fun dot hmem => hdots dot (List.mem_cons_of_mem _ hmem)) h
      · exact absurd he (by decide)
      · exact absurd rfl hne

/-- A path with a last name leads to an entry of this name. -/
theorem getLast?_of_resolve {name : String} (hname : fileName? path = some name)
    (h : d.resolve here path = .ok l) : l.getLast? = some name := by
  obtain ⟨before, after, hnames, hafter, hdot, hup⟩ := exists_namesOf_of_fileName? hname
  have hfollow := follow_of_resolve h
  rw [hnames, List.append_cons, follow_append] at hfollow
  cases hf : d.follow (startOf here path) (before ++ [name]) with
  | error e =>
    rw [hf] at hfollow
    cases hfollow
  | ok next =>
    rw [hf] at hfollow
    obtain ⟨parent, -, rfl⟩ := follow_concat_eq_ok hdot hup hf
    rw [eq_of_follow_dots hafter hfollow]
    exact List.getLast?_concat

/-- Where a temporary path leads. -/
theorem exists_of_resolve_temporary (h : d.resolve here (temporary path) = .ok l) :
    ∃ parent, d.follow (startOf here (temporaryBase path)) (namesOf (temporaryBase path)) =
        .ok parent ∧ l = parent ++ [temporaryName path] := by
  have hfollow := follow_of_resolve h
  rw [namesOf_temporary, startOf, isAbsolute_temporary] at hfollow
  obtain ⟨hdot, hup⟩ := temporaryName_ne path
  exact follow_concat_eq_ok hdot hup hfollow

/-- A path and its temporary path lead to different locations. -/
theorem ne_of_resolve_temporary (h : d.resolve here path = .ok l)
    (h' : d.resolve here (temporary path) = .ok l') : l ≠ l' := by
  obtain ⟨parent, hparent, rfl⟩ := exists_of_resolve_temporary h'
  cases hname : fileName? path with
  | some name =>
    intro he
    have hlast := getLast?_of_resolve hname h
    rw [he, List.getLast?_concat] at hlast
    exact temporaryName_ne_of_fileName? hname (Option.some.inj hlast)
  | none =>
    have hbase : temporaryBase path = path := by
      rw [temporaryBase, hname]
      rfl
    rw [hbase, follow_of_resolve h] at hparent
    obtain rfl := Except.ok.inj hparent
    intro he
    have hlength := congrArg List.length he
    rw [List.length_append, List.length_singleton] at hlength
    omega

/-! ### Operations -/

/-- What a path denotes, as it is seen by its location. -/
def node? (d : Disk) (here : Location) (path : String) : Option Node :=
  match d.resolve here path with
  | .error _ => none
  | .ok l => d.get? l

theorem node?_of_resolve (h : d.resolve here path = .ok l) : d.node? here path = d.get? l := by
  rw [node?, h]

/-- A path that leads to the same entry in two trees with the same directories. -/
theorem SameDirectories.node?_eq (h : SameDirectories d d')
    (hget : ∀ l, d.resolve here path = .ok l → d'.get? l = d.get? l) :
    d'.node? here path = d.node? here path := by
  cases hr : d.resolve here path with
  | ok l => rw [node?_of_resolve hr, node?_of_resolve (h.resolve_eq_ok_iff.2 hr), hget l hr]
  | error e =>
    cases hr' : d'.resolve here path with
    | ok l => exact absurd (hr.symm.trans (h.resolve_eq_ok_iff.1 hr')) (by simp)
    | error e' => rw [node?, node?, hr, hr']

theorem node?_eq_directory_iff :
    d.node? here path = some .directory ↔
      ∃ l, d.resolve here path = .ok l ∧ d.isDirectory l = true := by
  unfold node?
  cases d.resolve here path with
  | error e => simp
  | ok l => simp [isDirectory]

/-- A directory stays a directory. -/
theorem SameDirectories.node?_eq_directory_iff (h : SameDirectories d d') :
    d'.node? here path = some .directory ↔ d.node? here path = some .directory := by
  rw [Disk.node?_eq_directory_iff, Disk.node?_eq_directory_iff]
  exact exists_congr fun l => by rw [h.resolve_eq_ok_iff, h l]

/-- The file that is created stands where its path leads; nothing has been written to it. A device
stays. -/
theorem create_eq_ok {d₁ : Disk} (h : d.create here path = .ok (l, d₁)) :
    d.resolve here path = .ok l ∧ SameBut l d d₁ ∧ d₁.append l [] = d₁ ∧
      (d₁.get? l = some (.file []) ∨ d₁.get? l = some .sink ∨ d₁.get? l = some .zeros) := by
  have hput (hd : d.isDirectory l = false) (hd₁ : d.put l (.file []) = d₁) :
      SameBut l d d₁ ∧ d₁.append l [] = d₁ ∧
        (d₁.get? l = some (.file []) ∨ d₁.get? l = some .sink ∨ d₁.get? l = some .zeros) := by
    subst hd₁
    refine ⟨sameBut_put hd (by simp), ?_, .inl (get?_put_self ..)⟩
    simp [append, put_put]
  unfold create at h
  cases hr : d.resolve here path with
  | error e =>
    rw [hr] at h
    cases h
  | ok place =>
    rw [hr] at h
    dsimp only at h
    cases hg : d.get? place with
    | none =>
      rw [hg] at h
      dsimp only at h
      split at h
      · cases h
      · obtain ⟨rfl, hd₁⟩ := Prod.mk.inj (Except.ok.inj h)
        exact ⟨rfl, hput (by simp [isDirectory, hg]) hd₁⟩
    | some node =>
      rw [hg] at h
      cases node with
      | directory => cases h
      | file | program =>
        dsimp only at h
        split at h
        · cases h
        · obtain ⟨rfl, hd₁⟩ := Prod.mk.inj (Except.ok.inj h)
          exact ⟨rfl, hput (by simp [isDirectory, hg]) hd₁⟩
      | sink | zeros =>
        dsimp only at h
        split at h
        · cases h
        · obtain ⟨rfl, rfl⟩ := Prod.mk.inj (Except.ok.inj h)
          exact ⟨rfl, .refl (by simp [isDirectory, hg]), by simp [append, hg], by simp [hg]⟩

/-- A path with an ordinary last name leads to the entry of this name below its parent. -/
theorem resolve_of_lastName? {parent : Location} {name : String}
    (hparent : d.resolveParent here path = .ok parent) (hname : lastName? path = some name)
    (h : d.step parent name = .ok l) : d.resolve here path = .ok l := by
  have hlast : (namesOf path).getLast? = some name := by
    unfold lastName? at hname
    split at hname
    · cases hname
    · cases hname
    · cases hname
    next heq => exact heq.trans hname
  rw [resolve, hparent, hlast]
  dsimp only [Option.toList, follow]
  rw [h]

/-- A file that is renamed goes from the location of one path to that of the other. -/
theorem rename_eq_ok {source target : String} {d₂ : Disk}
    (h : d.rename here source target = .ok d₂) :
    ∃ l l' node, d.resolve here source = .ok l ∧ d.resolve here target = .ok l' ∧
      d.get? l = some node ∧ node ≠ .directory ∧ d.isDirectory l' = false ∧
      d₂ = (d.remove l).put l' node := by
  unfold rename at h
  obtain ⟨sourceParent, hsource, hrest⟩ := exists_of_bind_eq_ok h
  obtain ⟨targetParent, htarget, hnames⟩ := exists_of_bind_eq_ok hrest
  split at hnames
  next sourceName targetName hs ht =>
    obtain ⟨l, hl, hsourceAt⟩ := exists_of_bind_eq_ok hnames
    obtain ⟨l', hl', hmove⟩ := exists_of_bind_eq_ok hsourceAt
    split at hmove
    · cases hmove
    · cases hmove
    next node hnode hget =>
      split at hmove
      · cases hmove
      split at hmove
      · cases hmove
      next hdirectory =>
        refine ⟨l, l', node, resolve_of_lastName? hsource hs hl,
          resolve_of_lastName? htarget ht hl', hget, hnode, by simpa using hdirectory, ?_⟩
        exact (Except.ok.inj hmove).symm
  · cases hnames

/-- What has been written to a file that takes part in a sync, if nothing else was. -/
theorem get?_append_of_sync {d₁ : Disk} {bytes : Bytes}
    (h : d₁.get? l = some (.file []) ∨ d₁.get? l = some .sink ∨ d₁.get? l = some .zeros)
    (hsync : (d₁.append l bytes).sync l = .ok ()) :
    (d₁.append l bytes).get? l = some (.file bytes) := by
  rcases h with h | h | h
  · simp [append, h]
  · simp [append, sync, h] at hsync
  · simp [append, sync, h] at hsync

/-- A path without a slash at its end is removed, unless nothing or a directory stands there. -/
theorem unlink_cases (hslash : endsInSlash path = false) :
    (∃ e, d.unlink here path = .error e ∧
      ∀ node, d.node? here path = some node → node = .directory) ∨
    ∃ l, d.unlink here path = .ok (d.remove l) ∧ d.resolve here path = .ok l ∧
      d.isDirectory l = false := by
  unfold unlink find
  rw [hslash]
  cases hr : d.resolve here path with
  | error e => exact .inl ⟨e, rfl, by simp [node?, hr]⟩
  | ok l =>
    cases hg : d.get? l with
    | none => exact .inl ⟨.noEntry, by simp [hg], by simp [node?, hr, hg]⟩
    | some node =>
      by_cases hn : node = .directory
      · subst hn
        exact .inl ⟨.isDirectory, by simp [hg], by simp [node?, hr, hg, eq_comm]⟩
      · refine .inr ⟨l, ?_, rfl, by simpa [isDirectory, hg] using hn⟩
        cases node <;> simp_all

end Disk

end BenchSweep
