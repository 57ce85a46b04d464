import BenchSweep.Proofs.Path.Parts
import BenchSweep.Proofs.Save.Places

/-!
# The temporary sibling of a path

A path with an ordinary last name has a temporary path that differs from it in this name only, in
whatever way the path is spelled. So both lead into one directory, and the temporary paths of two
paths are as different as the paths are. A path without such a name gets one more part.

A file system passes over the names that stay where they are, so a path leads along its parts,
however it is spelled.

## Why siblings are told by parts and by places

A rename is atomic inside one directory only, so the temporary file has to be in the directory of
the path. On texts this is a matter of parts, and they are compared for every spelling. On a tree
the same two paths are resolved, through directories that may be named by dots, and end in one
directory with two names. `Path.IsSibling` has both, since neither follows from the other without a
tree.

## Why different paths stay apart

Two saves at once must not use one temporary file. `Path.AreApart` says that the temporary paths of
two paths are the same only if the paths are; as texts in one directory, and as places on a tree.
Paths without a last name all get one name more, which is the same for all of them.

## Main definitions

* `Disk.route`: the names that a path leads along.
* `Path.IsSibling`: a temporary path beside a path with a last name.
* `Path.AreApart`: when two temporary paths are the same.

## Main results

* `Disk.follow_route_of_resolve`: a path leads along its parts.
* `Path.temporary_sibling`: what the temporary path of every path is.
-/

namespace BenchSweep

namespace Disk

open BenchSweep.Path

variable {d : Disk} {here at_ l l' : Location} {names : List String} {path path' name : String}

/-! ### Where the parts of a path lead -/

/-- The names that a path leads along. -/
def route (path : String) : List String :=
  ((parts path).filter (· ≠ ['.'])).map String.ofList

/-- Of the names of a path, only those that stay where they are are not on its route. -/
theorem filter_namesOf (path : String) : (namesOf path).filter (· ≠ ".") = route path := by
  have hdot : (fun name : String => decide (name ≠ ".")) ∘ String.ofList =
      fun piece => decide (piece ≠ ['.']) := by
    funext piece
    have hiff : String.ofList piece = "." ↔ piece = ['.'] := by
      rw [← String.toList_inj, String.toList_ofList]
      rfl
    simp [hiff]
  have hfront : (if isAbsolute path = false ∧
      (Text.splitOn '/' path.toList).head? = some ['.'] then [['.']] else []).filter
        (· ≠ ['.']) = [] := by
    split <;> simp
  rw [namesOf_eq, route, parts, partsOf, List.filter_map, hdot, List.filter_append, hfront,
    List.nil_append, List.filter_filter, List.filter_filter]
  refine congrArg (List.map String.ofList) (List.filter_congr fun piece _ => ?_)
  by_cases hpiece : piece = ['.'] <;> simp [IsNamed, hpiece]

theorem follow_cons_eq_ok_iff :
    d.follow at_ (name :: names) = .ok l ↔
      ∃ next, d.step at_ name = .ok next ∧ d.follow next names = .ok l := by
  rw [follow]
  cases d.step at_ name <;> simp

/-- Names that stay where they are can be left out. -/
theorem follow_filter (h : d.follow at_ names = .ok l) :
    d.follow at_ (names.filter (· ≠ ".")) = .ok l := by
  induction names generalizing at_ with
  | nil => exact h
  | cons name names ih =>
    obtain ⟨next, hstep, hrest⟩ := follow_cons_eq_ok_iff.1 h
    by_cases hdot : name = "."
    · subst hdot
      obtain ⟨-, ⟨-, rfl⟩ | ⟨he, -⟩ | ⟨hne, -⟩⟩ := step_eq_ok_iff.1 hstep
      · exact ih hrest
      · exact absurd he (by decide)
      · exact absurd rfl hne
    · rw [List.filter_cons_of_pos (by simpa using hdot)]
      exact follow_cons_eq_ok_iff.2 ⟨next, hstep, ih hrest⟩

theorem isDirectory_of_follow (h : d.follow at_ names = .ok l) (hl : d.isDirectory l = true) :
    d.isDirectory at_ = true := by
  cases names with
  | nil =>
    obtain rfl := Except.ok.inj h
    exact hl
  | cons name names =>
    obtain ⟨next, hstep, -⟩ := follow_cons_eq_ok_iff.1 h
    exact (step_eq_ok_iff.1 hstep).1

/-- Names that stay where they are can be put in on the way to a directory. -/
theorem follow_of_follow_filter (hl : d.isDirectory l = true)
    (h : d.follow at_ (names.filter (· ≠ ".")) = .ok l) : d.follow at_ names = .ok l := by
  induction names generalizing at_ with
  | nil => exact h
  | cons name names ih =>
    by_cases hdot : name = "."
    · subst hdot
      rw [List.filter_cons_of_neg (by simp)] at h
      have hstep : d.step at_ "." = .ok at_ :=
        step_eq_ok_iff.2 ⟨isDirectory_of_follow h hl, .inl ⟨rfl, rfl⟩⟩
      exact follow_cons_eq_ok_iff.2 ⟨at_, hstep, ih h⟩
    · rw [List.filter_cons_of_pos (by simpa using hdot)] at h
      obtain ⟨next, hstep, hrest⟩ := follow_cons_eq_ok_iff.1 h
      exact follow_cons_eq_ok_iff.2 ⟨next, hstep, ih hrest⟩

/-- **A path leads along its parts.** -/
theorem follow_route_of_resolve (h : d.resolve here path = .ok l) :
    d.follow (startOf here path) (route path) = .ok l := by
  rw [← filter_namesOf]
  exact follow_filter (follow_of_resolve h)

theorem route_of_isLast (h : IsLast path name) : route path = route (parent path) ++ [name] := by
  have hname : name.toList ≠ ['.'] := h.isNamed.2
  rw [route, h.parts_eq, List.filter_append, List.map_append, List.filter_singleton]
  simp [hname, route]

/-- A path with a last name leads to the entry of this name in the directory above. -/
theorem exists_of_resolve_isLast (hlast : IsLast path name) (h : d.resolve here path = .ok l) :
    ∃ directory, d.follow (startOf here path) (route (parent path)) = .ok directory ∧
      l = directory ++ [name] := by
  have hfollow := follow_route_of_resolve h
  rw [route_of_isLast hlast] at hfollow
  exact follow_concat_eq_ok hlast.ne_dot hlast.ne_up hfollow

end Disk

namespace Path

variable {path path' name name' : String}

/-! ### Temporary paths -/

theorem IsLast.temporaryName_eq (h : IsLast path name) :
    temporaryName path = "." ++ name ++ ".tmp" := by
  rw [temporaryName, fileName?_eq_some_iff.2 h]
  rfl

theorem IsLast.temporaryBase_eq (h : IsLast path name) : temporaryBase path = parent path := by
  rw [temporaryBase, fileName?_eq_some_iff.2 h]
  rfl

theorem IsLast.temporary_eq (h : IsLast path name) :
    temporary path = join (parent path) ("." ++ name ++ ".tmp") := by
  rw [Path.temporary_eq, h.temporaryName_eq, h.temporaryBase_eq]

/-- The ends that are put around a name can be taken off again. -/
theorem temporaryName_inj : "." ++ name ++ ".tmp" = "." ++ name' ++ ".tmp" ↔ name = name' := by
  simp [← String.toList_inj]

theorem isNamed_temporaryName (path : String) : IsNamed (temporaryName path).toList := by
  rw [toList_temporaryName]
  exact ⟨by simp, by simp⟩

/-- A temporary path has one part more than the path that it is put beside. -/
theorem parts_temporary (path : String) :
    parts (temporary path) = parts (temporaryBase path) ++ [(temporaryName path).toList] :=
  parts_join _ (isNamed_temporaryName path) (not_mem_temporaryName path)

/-- The temporary path of a path with the last name `name`. -/
structure IsSibling (path name : String) : Prop where
  isAbsolute_eq : isAbsolute (temporary path) = isAbsolute path
  parts_eq : parts (temporary path) =
    (parts path).dropLast ++ [("." ++ name ++ ".tmp").toList]
  /-- The directory is spelled as before. -/
  parent_eq : parent (temporary path) = parent path
  isLast : IsLast (temporary path) ("." ++ name ++ ".tmp")
  not_same : ¬Same (temporary path) path
  /-- Where both paths lead, they lead into one directory. -/
  exists_directory : ∀ (d : Disk) (here l l' : Location), d.resolve here path = .ok l →
    d.resolve here (temporary path) = .ok l' →
      ∃ directory, l = directory ++ [name] ∧ l' = directory ++ ["." ++ name ++ ".tmp"]

theorem IsLast.parts_temporary_eq (h : IsLast path name) :
    parts (temporary path) = parts (parent path) ++ [("." ++ name ++ ".tmp").toList] := by
  rw [parts_temporary, h.temporaryName_eq, h.temporaryBase_eq]

theorem IsLast.isAbsolute_temporary (h : IsLast path name) :
    isAbsolute (temporary path) = isAbsolute path := by
  rw [Path.isAbsolute_temporary, h.temporaryBase_eq, isAbsolute_parent]

theorem IsLast.isLast_temporary (h : IsLast path name) :
    IsLast (temporary path) ("." ++ name ++ ".tmp") := by
  have hne := temporaryName_ne path
  rw [h.temporaryName_eq] at hne
  exact ⟨by rw [h.parts_temporary_eq, List.getLast?_concat], hne.1, hne.2⟩

theorem IsLast.parent_temporary (h : IsLast path name) :
    parent (temporary path) = parent path := by
  have hnamed := isNamed_temporaryName path
  have hslash := not_mem_temporaryName path
  rw [h.temporaryName_eq] at hnamed hslash
  rw [h.temporary_eq]
  exact parent_join_parent hnamed hslash

/-- Where both paths lead, they lead into one directory. -/
theorem IsLast.exists_directory {d : Disk} {here l l' : Location} (h : IsLast path name)
    (hl : d.resolve here path = .ok l) (hl' : d.resolve here (temporary path) = .ok l') :
    ∃ directory, l = directory ++ [name] ∧ l' = directory ++ ["." ++ name ++ ".tmp"] := by
  obtain ⟨directory, hfollow, rfl⟩ := Disk.exists_of_resolve_isLast h hl
  obtain ⟨directory', hfollow', rfl⟩ := Disk.exists_of_resolve_isLast h.isLast_temporary hl'
  rw [h.parent_temporary, Disk.startOf, h.isAbsolute_temporary] at hfollow'
  obtain rfl := Except.ok.inj (hfollow.symm.trans hfollow')
  exact ⟨directory, rfl, rfl⟩

theorem IsLast.isSibling (h : IsLast path name) : IsSibling path name := by
  have hparts : parts (temporary path) =
      (parts path).dropLast ++ [("." ++ name ++ ".tmp").toList] := by
    rw [h.parts_temporary_eq, h.parts_eq, List.dropLast_concat]
  refine ⟨h.isAbsolute_temporary, hparts, h.parent_temporary, h.isLast_temporary,
    fun hsame => ?_, fun d here l l' hl hl' => h.exists_directory hl hl'⟩
  have hlast := h.isLast_temporary.getLast?_eq
  rw [hsame.parts_eq, h.getLast?_eq] at hlast
  have hne := temporaryName_ne_of_fileName? (fileName?_eq_some_iff.2 h)
  exact hne (h.temporaryName_eq.trans (String.toList_inj.1 (Option.some.inj hlast)).symm)

/-- The temporary paths of two paths with the last names `name` and `name'` are the same only if the
paths are: in one directory, if the names are equal; on a disk, if both paths lead to one place. -/
structure AreApart (path path' name name' : String) : Prop where
  same_iff : Same (parent path) (parent path') →
    (Same (temporary path) (temporary path') ↔ name = name')
  eq_iff : parent path = parent path' → (temporary path = temporary path' ↔ name = name')
  location_iff : ∀ (d : Disk) (here here' l l' t t' : Location),
    d.resolve here path = .ok l → d.resolve here' path' = .ok l' →
    d.resolve here (temporary path) = .ok t → d.resolve here' (temporary path') = .ok t' →
      (t = t' ↔ l = l')

theorem IsLast.areApart (h : IsLast path name) (h' : IsLast path' name') :
    AreApart path path' name name' := by
  constructor
  case same_iff =>
    rintro ⟨habs, hparts⟩
    rw [isAbsolute_parent, isAbsolute_parent] at habs
    constructor
    · rintro ⟨-, htemporary⟩
      rw [h.parts_temporary_eq, h'.parts_temporary_eq, hparts] at htemporary
      have hlast := List.singleton_inj.1 (List.append_cancel_left htemporary)
      exact temporaryName_inj.1 (String.toList_inj.1 hlast)
    · rintro rfl
      refine ⟨by rw [h.isAbsolute_temporary, h'.isAbsolute_temporary, habs], ?_⟩
      rw [h.parts_temporary_eq, h'.parts_temporary_eq, hparts]
  case eq_iff =>
    intro hparent
    constructor
    · intro htemporary
      have hlast := h.isLast_temporary.getLast?_eq
      rw [htemporary, h'.isLast_temporary.getLast?_eq] at hlast
      exact (temporaryName_inj.1 (String.toList_inj.1 (Option.some.inj hlast))).symm
    · rintro rfl
      rw [h.temporary_eq, h'.temporary_eq, hparent]
  case location_iff =>
    intro d here here' l l' t t' hl hl' ht ht'
    obtain ⟨directory, rfl, rfl⟩ := h.exists_directory hl ht
    obtain ⟨directory', rfl, rfl⟩ := h'.exists_directory hl' ht'
    simp only [List.append_singleton_inj, temporaryName_inj]

/-- A path with no last name gets one more part. -/
theorem temporary_of_forall_not (h : ∀ name, ¬IsLast path name) :
    isAbsolute (temporary path) = isAbsolute path ∧
      parts (temporary path) = parts path ++ ["..tmp".toList] ∧
      temporary path = join path "..tmp" := by
  have hnone : fileName? path = none :=
    Option.eq_none_iff_forall_ne_some.2 fun name hname => h name (fileName?_eq_some_iff.1 hname)
  have hname : temporaryName path = "..tmp" := by
    rw [temporaryName, hnone]
    rfl
  have hbase : temporaryBase path = path := by
    rw [temporaryBase, hnone]
    rfl
  refine ⟨by rw [isAbsolute_temporary, hbase], ?_, by rw [temporary_eq, hbase, hname]⟩
  rw [parts_temporary, hbase, hname]

/-- A path with no last name has no parts, or it is the current directory, or it ends in `..`. -/
theorem forall_not_isLast_iff : (∀ name, ¬IsLast path name) ↔
    parts path = [] ∨ parts path = [['.']] ∨ (parts path).getLast? = some ['.', '.'] := by
  rw [← fileName?_eq_none_iff, Option.eq_none_iff_forall_ne_some]
  exact forall_congr' fun name => not_congr fileName?_eq_some_iff.symm

/-- **The temporary sibling of a path.** If the path has an ordinary last name, its temporary path
differs from it in this name only, however the path is spelled, and two temporary paths are the same
only if the paths are. Every other path gets one more part. -/
theorem temporary_sibling (path : String) :
    (∀ name, IsLast path name → IsSibling path name) ∧
    (∀ path' name name', IsLast path name → IsLast path' name' →
      AreApart path path' name name') ∧
    ((∀ name, ¬IsLast path name) ↔
      parts path = [] ∨ parts path = [['.']] ∨ (parts path).getLast? = some ['.', '.']) ∧
    ((∀ name, ¬IsLast path name) → isAbsolute (temporary path) = isAbsolute path ∧
      parts (temporary path) = parts path ++ ["..tmp".toList] ∧
      temporary path = join path "..tmp") :=
  ⟨fun _ => IsLast.isSibling, fun _ _ _ => IsLast.areApart, forall_not_isLast_iff,
    temporary_of_forall_not⟩

/-- Slashes at the end and names that stay where they are change nothing. -/
theorem temporary_sibling_spelled :
    IsLast "./out//.//data.csv/./" "data.csv" ∧ IsSibling "./out//.//data.csv/./" "data.csv" := by
  have hlast : IsLast "./out//.//data.csv/./" "data.csv" := ⟨by decide, by decide, by decide⟩
  exact ⟨hlast, (temporary_sibling _).1 _ hlast⟩

example : temporary "./out//.//data.csv/./" = "./out/.data.csv.tmp" := by decide

end Path

end BenchSweep
