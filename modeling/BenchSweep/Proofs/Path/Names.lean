import BenchSweep.Disk
import BenchSweep.Proofs.Text.Split

/-!
# The names of paths

A path is a text, and a file system sees its names. Here is how the names of a path follow from the
way in which it was put together, and what the names of a temporary path are: those of the path that
it is made for, up to its last name, and then a name that no path has that it is made for.

## Why names and parts are two things

The parts of a path are read off its text and leave out what denotes nothing, while a file system is
given names, among them some that stay where they are. Both are needed: where a path leads depends
on its names, and which paths are the same on its parts. Here are the names; for the parts, and for
paths that are spelled in different ways, see `BenchSweep.Proofs.Path.Parts`.

## Scope

A temporary name has a dot in front and an ending, so it is never empty, is not `.` or `..`, and has
no slash. Nothing more of it is used, and every path has one, also a path without a last name.

## Main results

* `Disk.namesOf_join`: the names of a path that is resolved against another one.
* `Disk.exists_namesOf_of_fileName?`: where the last name of a path stands among its names.
* `Disk.namesOf_temporary`: the names of a temporary path.
-/

namespace BenchSweep

namespace Path

theorem isAbsolute_join {base name : String} (hname : isAbsolute name = false) :
    isAbsolute (join base name) = isAbsolute base := by
  unfold join
  rw [hname, Bool.false_or]
  cases hb : base.toList with
  | nil => simp [isAbsolute, hb] at hname ⊢; exact hname
  | cons c rest =>
    split
    · simp_all
    split
    · simp [isAbsolute, hb]
    · simp [isAbsolute, hb]

/-- What is trimmed off denotes nothing. -/
theorem exists_eq_append_trimBack (absolute : Bool) (pieces : List (List Char)) :
    ∃ trimmed, pieces = trimmed ++ trimBack absolute pieces ∧
      ∀ piece ∈ trimmed, piece = [] ∨ piece = ['.'] := by
  fun_induction trimBack absolute pieces with
  | case1 => exact ⟨[], rfl, by simp⟩
  | case2 piece h => exact ⟨[piece], rfl, by simpa using h.imp_right And.right⟩
  | case3 piece h => exact ⟨[], rfl, by simp⟩
  | case4 piece rest hrest h ih =>
    obtain ⟨trimmed, he, ht⟩ := ih
    refine ⟨piece :: trimmed, by rw [List.cons_append, ← he], ?_⟩
    exact List.forall_mem_cons.2 ⟨h, ht⟩
  | case5 piece rest hrest h => exact ⟨[], rfl, by simp⟩

theorem trimBack_suffix (absolute : Bool) (pieces : List (List Char)) :
    trimBack absolute pieces <:+ pieces := by
  obtain ⟨trimmed, htrimmed, -⟩ := exists_eq_append_trimBack absolute pieces
  exact ⟨trimmed, htrimmed.symm⟩

/-- What is left starts with a piece that is not empty. -/
theorem ne_nil_of_trimBack {absolute : Bool} {pieces rest : List (List Char)} {piece : List Char}
    (h : trimBack absolute pieces = piece :: rest) : piece ≠ [] := by
  fun_induction trimBack absolute pieces with
  | case1 => cases h
  | case2 => cases h
  | case3 piece' hp =>
    obtain ⟨rfl, -⟩ := List.cons.inj h
    exact fun he => hp (.inl he)
  | case4 _ _ _ _ ih => exact ih h
  | case5 piece' rest' _ hp =>
    obtain ⟨rfl, -⟩ := List.cons.inj h
    exact fun he => hp (.inl he)

/-- The pieces of a path with a last name: after it stand only pieces that denote nothing. -/
theorem exists_pieces_of_fileName? {path name : String} (h : fileName? path = some name) :
    ∃ before after, pieces path = before ++ name.toList :: after ∧
      (∀ piece ∈ after, piece = [] ∨ piece = ['.']) ∧
      name.toList ≠ [] ∧ name ≠ "." ∧ name ≠ ".." := by
  unfold fileName? at h
  obtain ⟨trimmed, hpieces, htrimmed⟩ :=
    exists_eq_append_trimBack (isAbsolute path) (pieces path).reverse
  split at h
  · cases h
  next last rest hlast =>
    split at h
    · cases h
    next hordinary =>
      obtain rfl := Option.some.inj h
      obtain ⟨hdot, hup⟩ := not_or.1 hordinary
      have hcomponents : trimBack (isAbsolute path) (pieces path).reverse = last :: rest := hlast
      refine ⟨rest.reverse, trimmed.reverse, ?_, ?_, ?_, ?_, ?_⟩
      · rw [hcomponents] at hpieces
        rw [← List.reverse_reverse (pieces path), hpieces]
        simp
      · simpa using htrimmed
      · simpa using ne_nil_of_trimBack hcomponents
      · intro he
        exact hdot (by simpa using congrArg String.toList he)
      · intro he
        exact hup (by simpa using congrArg String.toList he)

/-- The last name of a temporary path. -/
def temporaryName (path : String) : String :=
  "." ++ (fileName? path).getD "" ++ ".tmp"

/-- The directory of a temporary path, as text. -/
def temporaryBase (path : String) : String :=
  if (fileName? path).isSome then parent path else path

theorem temporary_eq (path : String) :
    temporary path = join (temporaryBase path) (temporaryName path) := rfl

theorem toList_temporaryName (path : String) : (temporaryName path).toList =
    '.' :: ((fileName? path).getD "").toList ++ ['.', 't', 'm', 'p'] := by
  rw [temporaryName, String.toList_append, String.toList_append]
  rfl

theorem isAbsolute_temporaryName (path : String) : isAbsolute (temporaryName path) = false := by
  rw [isAbsolute, toList_temporaryName]
  rfl

theorem getLast?_temporaryName (path : String) :
    (temporaryName path).toList.getLast? = some 'p' := by
  rw [toList_temporaryName, List.getLast?_append]
  rfl

/-- A temporary name is an ordinary one. -/
theorem temporaryName_ne (path : String) :
    temporaryName path ≠ "." ∧ temporaryName path ≠ ".." := by
  have hlast := getLast?_temporaryName path
  constructor
  · intro he
    rw [he] at hlast
    exact absurd hlast (by decide)
  · intro he
    rw [he] at hlast
    exact absurd hlast (by decide)

/-- No path has the last name of its temporary path. -/
theorem temporaryName_ne_of_fileName? {path name : String} (h : fileName? path = some name) :
    temporaryName path ≠ name := by
  intro he
  have hlength := congrArg (List.length ∘ String.toList) he
  rw [Function.comp, Function.comp, toList_temporaryName, h] at hlength
  simp at hlength
  omega

theorem mem_splitOn_of_mem_pieces {path : String} {piece : List Char} (h : piece ∈ pieces path) :
    piece ∈ Text.splitOn '/' path.toList := by
  unfold pieces at h
  split at h
  next rest hsplit =>
    rw [hsplit]
    split at h
    · exact List.mem_cons_of_mem _ h
    · exact h
  · exact h

theorem not_mem_of_mem_pieces {path : String} {piece : List Char} (h : piece ∈ pieces path) :
    '/' ∉ piece :=
  Text.not_mem_of_mem_splitOn (mem_splitOn_of_mem_pieces h)

theorem not_mem_of_fileName? {path name : String} (h : fileName? path = some name) :
    '/' ∉ name.toList := by
  obtain ⟨before, after, hpieces, -⟩ := exists_pieces_of_fileName? h
  have hmem : name.toList ∈ pieces path := by simp [hpieces]
  exact not_mem_of_mem_pieces hmem

theorem not_mem_temporaryName (path : String) : '/' ∉ (temporaryName path).toList := by
  have hname : '/' ∉ ((fileName? path).getD "").toList := by
    cases h : fileName? path with
    | none => decide
    | some name => exact not_mem_of_fileName? h
  rw [toList_temporaryName]
  simpa using hname

theorem isAbsolute_temporary (path : String) :
    isAbsolute (temporary path) = isAbsolute (temporaryBase path) :=
  isAbsolute_join (isAbsolute_temporaryName path)

end Path

namespace Disk

open BenchSweep.Path

/-- The names of a path are its pieces that are not empty. -/
theorem namesOf_eq (path : String) :
    namesOf path = ((Text.splitOn '/' path.toList).filter (· ≠ [])).map String.ofList := by
  unfold namesOf pieces
  split
  next rest h =>
    rw [h]
    split
    · simp
    · rfl
  · rfl

/-- The names of a path that is resolved against another one. -/
theorem namesOf_join {base name : String} (hname : isAbsolute name = false) :
    namesOf (join base name) = namesOf base ++ namesOf name := by
  have happend (s rest : List Char) : ((Text.splitOn '/' (s ++ '/' :: rest)).filter (· ≠ [])) =
      (Text.splitOn '/' s).filter (· ≠ []) ++ (Text.splitOn '/' rest).filter (· ≠ []) := by
    rw [Text.splitOn_append, List.filter_append]
  rw [namesOf_eq, namesOf_eq base, namesOf_eq name, ← List.map_append]
  refine congrArg (List.map String.ofList) ?_
  unfold join
  rw [hname, Bool.false_or]
  split
  next hempty =>
    rw [of_decide_eq_true hempty]
    rfl
  split
  next hslash =>
    obtain ⟨front, hfront⟩ := List.getLast?_eq_some_iff.1 hslash
    have hnil : (Text.splitOn '/' []).filter (· ≠ []) = [] := rfl
    rw [String.toList_append, hfront, List.append_assoc, List.singleton_append, happend, happend,
      hnil, List.append_nil]
  · rw [String.toList_append, String.toList_append, List.append_assoc]
    exact happend base.toList name.toList

/-- A name without slashes is its only name. -/
theorem namesOf_of_not_mem {name : String} (hne : name.toList ≠ []) (h : '/' ∉ name.toList) :
    namesOf name = [name] := by
  rw [namesOf_eq, Text.splitOn_of_not_mem h, List.filter_cons_of_pos (by simpa using hne)]
  simp

/-- The names of a temporary path. -/
theorem namesOf_temporary (path : String) :
    namesOf (temporary path) = namesOf (temporaryBase path) ++ [temporaryName path] := by
  have hne : (temporaryName path).toList ≠ [] := by simp [toList_temporaryName]
  rw [temporary_eq, namesOf_join (isAbsolute_temporaryName path),
    namesOf_of_not_mem hne (not_mem_temporaryName path)]

/-- The last name of a path stands among its names, and after it only names of the same place. -/
theorem exists_namesOf_of_fileName? {path name : String} (h : fileName? path = some name) :
    ∃ before after, namesOf path = before ++ name :: after ∧ (∀ dot ∈ after, dot = ".") ∧
      name ≠ "." ∧ name ≠ ".." := by
  obtain ⟨before, after, hpieces, hafter, hne, hdot, hup⟩ := exists_pieces_of_fileName? h
  refine ⟨(before.filter (· ≠ [])).map String.ofList, (after.filter (· ≠ [])).map String.ofList,
    ?_, ?_, hdot, hup⟩
  · rw [namesOf, hpieces, List.filter_append, List.filter_cons_of_pos (by simpa using hne)]
    simp
  · intro dot hmem
    obtain ⟨piece, hpiece, rfl⟩ := List.mem_map.1 hmem
    obtain ⟨hin, hnot⟩ := List.mem_filter.1 hpiece
    rcases hafter piece hin with rfl | rfl
    · simp at hnot
    · rfl

/-- A temporary path does not end in a slash. -/
theorem endsInSlash_temporary (path : String) : endsInSlash (temporary path) = false := by
  have hlast : (temporary path).toList.getLast? = some 'p' := by
    have hname := getLast?_temporaryName path
    rw [temporary_eq, join]
    split
    · exact hname
    split
    · rw [String.toList_append, List.getLast?_append, hname]
      rfl
    · rw [String.toList_append, List.getLast?_append, hname]
      rfl
  rw [endsInSlash, hlast]
  rfl

end Disk

end BenchSweep
