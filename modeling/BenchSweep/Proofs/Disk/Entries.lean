import BenchSweep.Disk
import Mathlib.Data.List.Basic

/-!
# Entries of a tree

What stands at a location after an entry was put there, was removed, or got more bytes. Where a path
leads depends on the directories of a tree only, so it is the same in all trees that differ in
files.

## Why directories are kept apart

To find the place of a path, directories are looked up one after the other, and no file on the way
is read. A save creates, fills, renames and removes files and makes no directory. So all trees that
a save goes through have the same directories, and every path that is resolved in one of them can be
resolved in the first one. `SameBut` is the stronger relation, for trees in which a single file was
worked on; it is what the steps up to the rename keep.

## Main definitions

* `Disk.SameDirectories`: trees with the same directories.
* `Disk.SameBut`: trees that differ at most in a file at one location.

## Main results

* `Disk.SameDirectories.resolve_eq_ok_iff`: paths lead to the same locations in such trees.
-/

namespace BenchSweep

open Text (Bytes)

namespace Disk

/-! ### The entry at a location -/

theorem get?_remove (d : Disk) (l l' : Location) :
    (d.remove l).get? l' = if l' = l then none else d.get? l' := by
  obtain ⟨entries⟩ := d
  simp only [remove, get?]
  induction entries with
  | nil => simp
  | cons e entries ih =>
    obtain ⟨place, node⟩ := e
    by_cases hp : place = l
    · subst hp
      rw [List.filter_cons_of_neg (by simp), ih]
      split
      · rfl
      next hne => rw [List.lookup_cons, beq_false_of_ne hne]
    · rw [List.filter_cons_of_pos (by simpa using hp), List.lookup_cons, ih, List.lookup_cons]
      by_cases hl : l' = place
      · subst hl
        rw [if_neg hp, beq_self_eq_true, if_neg hp]
      · rw [beq_false_of_ne hl]

theorem get?_put (d : Disk) (l l' : Location) (n : Node) :
    (d.put l n).get? l' = if l' = l then some n else d.get? l' := by
  have h := get?_remove d l l'
  simp only [put, get?, List.lookup_cons] at h ⊢
  by_cases hl : l' = l
  · subst hl
    rw [beq_self_eq_true, if_pos rfl]
  · rw [beq_false_of_ne hl, h, if_neg hl, if_neg hl]

@[simp] theorem get?_put_self (d : Disk) (l : Location) (n : Node) :
    (d.put l n).get? l = some n := by
  rw [get?_put, if_pos rfl]

theorem remove_remove (d : Disk) (l : Location) : (d.remove l).remove l = d.remove l := by
  simp [remove, List.filter_filter]

/-- The last entry that was put at a location stays. -/
theorem put_put (d : Disk) (l : Location) (n n' : Node) : (d.put l n).put l n' = d.put l n' := by
  have h : (d.put l n).remove l = d.remove l := by
    conv => rhs; rw [← remove_remove]
    simp [put, remove]
  rw [put, h]
  rfl

/-! ### Trees that differ in files -/

/-- Trees with the same directories. -/
def SameDirectories (d d' : Disk) : Prop :=
  ∀ l, d'.isDirectory l = d.isDirectory l

/-- Trees that differ at most in a file at one location. -/
structure SameBut (l : Location) (d d' : Disk) : Prop where
  get?_eq : ∀ l', l' ≠ l → d'.get? l' = d.get? l'
  isDirectory_eq : d.isDirectory l = false
  isDirectory_eq' : d'.isDirectory l = false

variable {d d' d'' : Disk} {l : Location}

theorem SameBut.refl (h : d.isDirectory l = false) : SameBut l d d :=
  ⟨fun _ _ => rfl, h, h⟩

theorem SameBut.trans (h : SameBut l d d') (h' : SameBut l d' d'') : SameBut l d d'' :=
  ⟨fun l' hl => (h'.get?_eq l' hl).trans (h.get?_eq l' hl), h.isDirectory_eq, h'.isDirectory_eq'⟩

theorem SameBut.sameDirectories (h : SameBut l d d') : SameDirectories d d' := by
  intro l'
  by_cases hl : l' = l
  · subst hl
    rw [h.isDirectory_eq, h.isDirectory_eq']
  · rw [isDirectory, isDirectory, h.get?_eq l' hl]

theorem sameBut_put (h : d.isDirectory l = false) {n : Node} (hn : n ≠ .directory) :
    SameBut l d (d.put l n) := by
  refine ⟨fun l' hl => ?_, h, ?_⟩
  · rw [get?_put, if_neg hl]
  · rw [isDirectory, get?_put_self]
    simpa using hn

theorem sameBut_remove (h : d.isDirectory l = false) : SameBut l d (d.remove l) := by
  refine ⟨fun l' hl => ?_, h, ?_⟩
  · rw [get?_remove, if_neg hl]
  · rw [isDirectory, get?_remove, if_pos rfl]
    rfl

theorem sameBut_append (h : d.isDirectory l = false) (bytes : Bytes) :
    SameBut l d (d.append l bytes) := by
  unfold append
  split
  · exact sameBut_put h (by simp)
  · exact .refl h

/-! ### Bytes at the end of a file -/

theorem append_append (d : Disk) (l : Location) (bytes more : Bytes) :
    (d.append l bytes).append l more = d.append l (bytes ++ more) := by
  cases hd : d.get? l with
  | none => simp [append, hd]
  | some node => cases node <;> simp [append, hd, put_put]

/-! ### Where paths lead -/

theorem step_eq_ok_iff {at_ : Location} {name : String} :
    d.step at_ name = .ok l ↔ d.isDirectory at_ = true ∧
      ((name = "." ∧ l = at_) ∨ (name = ".." ∧ l = at_.dropLast) ∨
        (name ≠ "." ∧ name ≠ ".." ∧ nameLength name ≤ longestName ∧ l = at_ ++ [name])) := by
  unfold step
  by_cases hd : d.isDirectory at_
  · simp only [hd, Bool.not_true, Bool.false_eq_true, if_false, true_and]
    by_cases hdot : name = "."
    · simp [hdot, eq_comm]
    · by_cases hup : name = ".."
      · simp [hup, eq_comm]
      · by_cases hlong : longestName < nameLength name
        · simp [hdot, hup, hlong, Nat.not_le.2 hlong]
        · simp [hdot, hup, hlong, Nat.not_lt.1 hlong, eq_comm]
  · simp [hd]

theorem follow_append (d : Disk) (at_ : Location) (names more : List String) :
    d.follow at_ (names ++ more) =
      match d.follow at_ names with
      | .error e => .error e
      | .ok next => d.follow next more := by
  induction names generalizing at_ with
  | nil => rfl
  | cons name names ih =>
    rw [List.cons_append, follow, follow]
    cases d.step at_ name with
    | error e => rfl
    | ok next => exact ih next

theorem resolveParent_eq_ok_iff {here : Location} {path : String} :
    d.resolveParent here path = .ok l ↔ pathError? path = none ∧
      d.follow (startOf here path) (namesOf path).dropLast = .ok l ∧ d.isDirectory l = true := by
  unfold resolveParent
  cases pathError? path with
  | some e => simp
  | none =>
    cases hf : d.follow (startOf here path) (namesOf path).dropLast with
    | error e => simp
    | ok parent =>
      by_cases hd : d.isDirectory parent
      · simp only [hd, if_true, Except.ok.injEq, true_and]
        exact ⟨fun he => ⟨he, he ▸ hd⟩, And.left⟩
      · refine iff_of_false (by simp [hd]) ?_
        rintro ⟨-, he, hl⟩
        obtain rfl := Except.ok.inj he
        exact hd hl

/-- Where a path leads, its names lead one by one. -/
theorem resolve_eq_ok_iff {here : Location} {path : String} :
    d.resolve here path = .ok l ↔ pathError? path = none ∧
      ∃ parent, d.follow (startOf here path) (namesOf path).dropLast = .ok parent ∧
        d.isDirectory parent = true ∧
        d.follow parent (namesOf path).getLast?.toList = .ok l := by
  unfold resolve
  constructor
  · intro h
    cases hp : d.resolveParent here path with
    | error e =>
      rw [hp] at h
      cases h
    | ok parent =>
      rw [hp] at h
      obtain ⟨hpath, hfollow, hd⟩ := resolveParent_eq_ok_iff.1 hp
      exact ⟨hpath, parent, hfollow, hd, h⟩
  · rintro ⟨hpath, parent, hfollow, hd, hlast⟩
    rw [resolveParent_eq_ok_iff.2 ⟨hpath, hfollow, hd⟩]
    exact hlast

theorem follow_of_resolve {here : Location} {path : String} (h : d.resolve here path = .ok l) :
    d.follow (startOf here path) (namesOf path) = .ok l := by
  obtain ⟨-, parent, hparent, -, hlast⟩ := resolve_eq_ok_iff.1 h
  have hnames : namesOf path = (namesOf path).dropLast ++ (namesOf path).getLast?.toList := by
    cases hlast : (namesOf path).getLast? with
    | none =>
      rw [List.getLast?_eq_none_iff.1 hlast]
      rfl
    | some name => exact (List.dropLast_append_getLast? name hlast).symm
  rw [hnames, follow_append, hparent]
  exact hlast

namespace SameDirectories

variable {at_ : Location}

theorem trans (h : SameDirectories d d') (h' : SameDirectories d' d'') : SameDirectories d d'' :=
  fun l => (h' l).trans (h l)

theorem step_eq_ok_iff (h : SameDirectories d d') {name : String} :
    d'.step at_ name = .ok l ↔ d.step at_ name = .ok l := by
  rw [Disk.step_eq_ok_iff, Disk.step_eq_ok_iff, h at_]

theorem follow_eq_ok_iff (h : SameDirectories d d') {names : List String} :
    d'.follow at_ names = .ok l ↔ d.follow at_ names = .ok l := by
  induction names generalizing at_ with
  | nil => rfl
  | cons name names ih =>
    rw [follow, follow]
    cases hs : d.step at_ name with
    | ok next =>
      rw [h.step_eq_ok_iff.2 hs]
      exact ih
    | error e =>
      cases hs' : d'.step at_ name with
      | ok next => exact absurd (hs.symm.trans (h.step_eq_ok_iff.1 hs')) (by simp)
      | error e' => simp

theorem resolveParent_eq_ok_iff (h : SameDirectories d d') {here : Location} {path : String} :
    d'.resolveParent here path = .ok l ↔ d.resolveParent here path = .ok l := by
  rw [Disk.resolveParent_eq_ok_iff, Disk.resolveParent_eq_ok_iff, h.follow_eq_ok_iff, h l]

/-- Paths lead to the same locations in trees with the same directories. -/
theorem resolve_eq_ok_iff (h : SameDirectories d d') {here : Location} {path : String} :
    d'.resolve here path = .ok l ↔ d.resolve here path = .ok l := by
  rw [Disk.resolve_eq_ok_iff, Disk.resolve_eq_ok_iff]
  refine and_congr_right fun _ => exists_congr fun parent => ?_
  rw [h.follow_eq_ok_iff, h.follow_eq_ok_iff, h parent]

end SameDirectories

end Disk

end BenchSweep
