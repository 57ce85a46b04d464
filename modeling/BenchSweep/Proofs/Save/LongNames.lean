import BenchSweep.Proofs.Save.Atomic
import BenchSweep.Proofs.Save.Siblings
import BenchSweep.Proofs.Text.Utf8

/-!
# Names that are too long for a save

A table is written under a temporary name, which is five bytes longer than the name that it is saved
under. So where a table could be written directly, to save it succeeds if the longer name is a name
and the path with it is a path; otherwise the temporary file cannot be created, and the table is not
saved at all.

## Why the hypothesis is about writing directly

A save can fail for many reasons that have nothing to do with names. To see the one that has,
`Disk.TakesFile` asks for a path at which a file could be created at once, with nothing at its
temporary path. Under this hypothesis a direct write would succeed, and the theorem says that a save
does so exactly if the names fit. The names that do not fit are those of the last five lengths below
the limit, and likewise for paths.

## Scope

Lengths are counted in bytes of UTF-8, with the limits of the system for names and for paths. No
step is made to fail here, so that what goes wrong is the doing of the save.

## Main definitions

* `Disk.TakesFile`: a path at which a file could be written directly.
* `Path.Fits`: a path that is left short enough for its temporary path.

## Main results

* `Disk.TakesFile.create_temporary`, `Disk.TakesFile.create_temporary_of_not`: when the temporary
  file can be created.
* `Table.saveOn_of_takesFile`: when a table is saved.
* `Table.saveOn_longest_name`: a path at which a table could be written and cannot be saved.
-/

namespace BenchSweep

open BenchSweep.Path

/-- The temporary path of a path with the last name `name` is not too long, and its name is not. -/
structure Path.Fits (path name : String) : Prop where
  name_le : Disk.nameLength name + 5 ≤ Disk.longestName
  path_le : Disk.nameLength (temporary path) ≤ Disk.longestPath

namespace Disk

variable {d : Disk} {here l : Location} {path name : String}

/-- A file could be written directly: the path has an ordinary last name, a file can be opened for
writing there, and nothing stands at the temporary path. -/
structure TakesFile (d : Disk) (here : Location) (path name : String) : Prop where
  isLast : IsLast path name
  exists_create : ∃ l d₁, d.create here path = .ok (l, d₁)
  node?_eq : d.node? here (temporary path) = none

/-! ### Lengths -/

/-- A temporary name is five bytes longer. -/
theorem nameLength_temporaryName (h : IsLast path name) :
    nameLength (temporaryName path) = nameLength name + 5 := by
  have hdot : Text.byteLength ['.'] = 1 := rfl
  have htmp : Text.byteLength ['.', 't', 'm', 'p'] = 4 := rfl
  rw [nameLength, toList_temporaryName, fileName?_eq_some_iff.2 h, Option.getD_some,
    Text.byteLength_append, ← List.singleton_append, Text.byteLength_append, hdot, htmp, nameLength]
  omega

theorem nul_not_mem_temporary (hlast : IsLast path name) (h : '\x00' ∉ path.toList) :
    '\x00' ∉ (temporary path).toList := by
  rw [Path.temporary_eq, hlast.temporaryBase_eq]
  intro hmem
  rcases mem_of_mem_join hmem with hparent | hslash | hname
  · rcases mem_of_mem_parent hparent with hslash | hpath
    · exact absurd hslash (by decide)
    · exact h hpath
  · exact absurd hslash (by decide)
  · have hlastName := fileName?_eq_some_iff.2 hlast
    rw [toList_temporaryName, hlastName, Option.getD_some, List.cons_append, List.mem_cons,
      List.mem_append] at hname
    rcases hname with hdot | hname | htmp
    · exact absurd hdot (by decide)
    · exact h (mem_of_mem_fileName? hlastName hname)
    · exact absurd htmp (by decide)

/-- A temporary path is refused for its length alone. -/
theorem pathError?_temporary (hlast : IsLast path name) (h : pathError? path = none) :
    pathError? (temporary path) =
      if longestPath < nameLength (temporary path) then some .nameTooLong else none := by
  have hnul : '\x00' ∉ path.toList := by
    intro hmem
    rw [pathError?, if_pos hmem] at h
    cases h
  have hne : temporary path ≠ "" := by
    intro he
    have hparts := hlast.parts_temporary_eq
    have hempty : parts "" = [] := rfl
    rw [he, hempty] at hparts
    exact List.append_ne_nil_of_right_ne_nil _ (List.cons_ne_nil _ _) hparts.symm
  rw [pathError?, if_neg (nul_not_mem_temporary hlast hnul), if_neg hne]

/-! ### The directory of a file -/

theorem endsInSlash_of_create {r : Location × Disk} (h : d.create here path = .ok r) :
    endsInSlash path = false := by
  rw [← Bool.not_eq_true]
  intro hslash
  unfold create at h
  cases hr : d.resolve here path with
  | error e =>
    rw [hr] at h
    cases h
  | ok l =>
    rw [hr, hslash] at h
    dsimp only at h
    cases hg : d.get? l with
    | none =>
      rw [hg] at h
      cases h
    | some node =>
      rw [hg] at h
      cases node <;> cases h

theorem lastName?_eq_some (h : (namesOf path).getLast? = some name) (hdot : name ≠ ".")
    (hup : name ≠ "..") : lastName? path = some name := by
  rw [lastName?, h]
  split
  next he => cases he
  next he => exact absurd (Option.some.inj he) hdot
  next he => exact absurd (Option.some.inj he) hup
  next he => exact he.symm

/-- The directory in which a file stands that a path denotes, or is to be. -/
structure Holds (d : Disk) (here : Location) (path name : String) (directory : Location) :
    Prop where
  resolveParent_eq : d.resolveParent here path = .ok directory
  lastName?_eq : lastName? path = some name
  step_eq : d.step directory name = .ok (directory ++ [name])
  isDirectory_eq : d.isDirectory (directory ++ [name]) = false
  follow_parent : d.follow (startOf here path) (namesOf (parent path)) = .ok directory

/-- A path at which a file can be created ends in its last name, which stands in a directory. -/
theorem TakesFile.exists_holds (h : TakesFile d here path name) :
    ∃ directory, Holds d here path name directory := by
  obtain ⟨l, d₁, hcreate⟩ := h.exists_create
  obtain ⟨hresolve, hsame, -⟩ := create_eq_ok hcreate
  obtain ⟨hpath, directory, hfollow, hdir, hlast⟩ := resolve_eq_ok_iff.1 hresolve
  obtain ⟨before, after, hnames, hafter, hdot, hup⟩ :=
    exists_namesOf_of_fileName? (fileName?_eq_some_iff.2 h.isLast)
  have hname : (namesOf path).getLast? = some name := by
    rcases List.eq_nil_or_concat after with rfl | ⟨dots, dot, rfl⟩
    · rw [hnames, List.getLast?_concat]
    · -- the path would denote the directory in which its last name is looked up
      rw [List.concat_eq_append] at hnames hafter
      have hend : (namesOf path).getLast? = some dot := by
        rw [hnames, ← List.cons_append, ← List.append_assoc, List.getLast?_concat]
      have hstays : ∀ name ∈ [dot], name = "." := fun name hmem =>
        hafter name (List.mem_append_right _ hmem)
      rw [hend] at hlast
      rw [← eq_of_follow_dots hstays hlast, hsame.isDirectory_eq] at hdir
      cases hdir
  rw [hname] at hlast
  obtain ⟨next, hstep, hnext⟩ := follow_cons_eq_ok_iff.1 hlast
  obtain rfl := Except.ok.inj hnext
  obtain ⟨directory', hroute, hl⟩ := exists_of_resolve_isLast h.isLast hresolve
  obtain ⟨-, ⟨he, -⟩ | ⟨he, -⟩ | ⟨-, -, -, hnext⟩⟩ := step_eq_ok_iff.1 hstep
  · exact absurd he hdot
  · exact absurd he hup
  obtain rfl : directory = directory' := (List.append_inj' (hnext.symm.trans hl) rfl).1
  subst hl
  rw [← filter_namesOf] at hroute
  exact ⟨directory, resolveParent_eq_ok_iff.2 ⟨hpath, hfollow, hdir⟩,
    lastName?_eq_some hname hdot hup, hstep, hsame.isDirectory_eq,
    follow_of_follow_filter hdir hroute⟩

/-! ### The temporary file -/

variable {directory : Location}

namespace Holds

theorem isDirectory (h : Holds d here path name directory) : d.isDirectory directory = true :=
  (resolveParent_eq_ok_iff.1 h.resolveParent_eq).2.2

/-- The temporary file is looked up in the same directory. -/
theorem resolveParent_temporary (h : Holds d here path name directory) (hlast : IsLast path name)
    (hpath : nameLength (temporary path) ≤ longestPath) :
    d.resolveParent here (temporary path) = .ok directory := by
  obtain ⟨herror, -, hdir⟩ := resolveParent_eq_ok_iff.1 h.resolveParent_eq
  refine resolveParent_eq_ok_iff.2 ⟨?_, ?_, hdir⟩
  · rw [pathError?_temporary hlast herror, if_neg (Nat.not_lt.2 hpath)]
  · rw [startOf, hlast.isAbsolute_temporary, namesOf_temporary, List.dropLast_concat,
      hlast.temporaryBase_eq]
    exact h.follow_parent

theorem step_temporary (h : Holds d here path name directory) (hlast : IsLast path name) :
    d.step directory (temporaryName path) =
      if longestName < nameLength name + 5 then .error .nameTooLong
      else .ok (directory ++ [temporaryName path]) := by
  obtain ⟨hdot, hup⟩ := temporaryName_ne path
  rw [step, h.isDirectory, if_neg (by simp), if_neg hdot, if_neg hup,
    nameLength_temporaryName hlast]

/-- Where a temporary path leads. -/
theorem resolve_temporary (h : Holds d here path name directory) (hlast : IsLast path name)
    (hpath : nameLength (temporary path) ≤ longestPath) :
    d.resolve here (temporary path) =
      if longestName < nameLength name + 5 then .error .nameTooLong
      else .ok (directory ++ [temporaryName path]) := by
  rw [resolve, h.resolveParent_temporary hlast hpath, namesOf_temporary, List.getLast?_concat]
  dsimp only [Option.toList, follow]
  rw [h.step_temporary hlast]
  by_cases hname : longestName < nameLength name + 5
  · rw [if_pos hname]
  · rw [if_neg hname]

end Holds

/-- A temporary file whose name or path is too long cannot be created. -/
theorem TakesFile.create_temporary_of_not (h : TakesFile d here path name)
    (hfits : ¬Fits path name) : d.create here (temporary path) = .error .nameTooLong := by
  obtain ⟨directory, hholds⟩ := h.exists_holds
  rw [create]
  by_cases hpath : nameLength (temporary path) ≤ longestPath
  · have hname : longestName < nameLength name + 5 :=
      Nat.lt_of_not_le fun hle => hfits ⟨hle, hpath⟩
    rw [hholds.resolve_temporary h.isLast hpath, if_pos hname]
  · have herror := (resolveParent_eq_ok_iff.1 hholds.resolveParent_eq).1
    have hlong := pathError?_temporary h.isLast herror
    rw [if_pos (Nat.lt_of_not_le hpath)] at hlong
    rw [resolve, resolveParent, hlong]

/-- Otherwise it is created in the directory of the path. -/
theorem TakesFile.create_temporary (h : TakesFile d here path name)
    (hholds : Holds d here path name directory) (hfits : Fits path name) :
    d.create here (temporary path) =
      .ok (directory ++ [temporaryName path],
        d.put (directory ++ [temporaryName path]) (.file [])) := by
  have hresolve := hholds.resolve_temporary h.isLast hfits.path_le
  rw [if_neg (Nat.not_lt.2 hfits.name_le)] at hresolve
  have hnone := h.node?_eq
  rw [node?_of_resolve hresolve] at hnone
  rw [create, hresolve]
  dsimp only
  rw [hnone, endsInSlash_temporary]
  rfl

/-- A file with the temporary name is moved to the path. -/
theorem TakesFile.rename_temporary {d' : Disk} {content : Text.Bytes}
    (h : TakesFile d here path name) (hholds : Holds d here path name directory)
    (hfits : Fits path name) (hsame : SameDirectories d d')
    (hfile : d'.get? (directory ++ [temporaryName path]) = some (.file content)) :
    ∃ d₂, d'.rename here (temporary path) path = .ok d₂ := by
  have hsource := hsame.resolveParent_eq_ok_iff.2
    (hholds.resolveParent_temporary h.isLast hfits.path_le)
  have htarget := hsame.resolveParent_eq_ok_iff.2 hholds.resolveParent_eq
  have htemporary : d.step directory (temporaryName path) =
      .ok (directory ++ [temporaryName path]) := by
    rw [hholds.step_temporary h.isLast, if_neg (Nat.not_lt.2 hfits.name_le)]
  have hlast : lastName? (temporary path) = some (temporaryName path) := by
    obtain ⟨hdot, hup⟩ := temporaryName_ne path
    exact lastName?_eq_some (by rw [namesOf_temporary, List.getLast?_concat]) hdot hup
  have hdirectory := hsame (directory ++ [name])
  rw [hholds.isDirectory_eq] at hdirectory
  obtain ⟨l, d₁, hcreate⟩ := h.exists_create
  refine ⟨(d'.remove (directory ++ [temporaryName path])).put (directory ++ [name])
    (.file content), ?_⟩
  simp only [rename, hsource, htarget, hlast, hholds.lastName?_eq,
    hsame.step_eq_ok_iff.2 htemporary, hsame.step_eq_ok_iff.2 hholds.step_eq, hfile, hdirectory,
    endsInSlash_temporary, endsInSlash_of_create hcreate, bind, Except.bind]
  rfl

/-- Where nothing stands, nothing is removed. -/
theorem exists_unlink_eq_error (h : d.node? here path = none) :
    ∃ e, d.unlink here path = .error e := by
  unfold unlink find
  cases hr : d.resolve here path with
  | error e => exact ⟨e, rfl⟩
  | ok l =>
    rw [node?_of_resolve hr] at h
    simp only [h]
    exact ⟨_, rfl⟩

end Disk

/-! ### Steps of a save -/

namespace Save

variable {here : Location} {table : Table} {path name : String} {d : Disk}

/-- A save of which no step fails puts the table at its path. -/
theorem exists_of_passes (h : ∀ n, Passes {} here table path d n) :
    ∃ d', table.saveOn here path d = (.ok (), d') ∧
      d'.node? here path = some (.file table.text) := by
  have hcourse := course_steps {} here table path d
  unfold Table.saveOn Table.save
  cases hr : steps {} here table path { disk := d } with
  | ok _ t =>
    rw [hr] at hcourse
    exact ⟨t.disk, rfl, hcourse.of_ok.entry_of_ok rfl⟩
  | error f t =>
    rw [hr] at hcourse
    exact absurd (h t.deliveries) hcourse.of_error.2

/-- A save whose temporary file cannot be created changes nothing, if nothing stands there. -/
theorem saveOn_of_create_eq_error {e : SystemError}
    (h : d.create here (temporary path) = .error e)
    (hnone : d.node? here (temporary path) = none) :
    table.saveOn here path d = (.error ⟨[.creating (temporary path)], .system e⟩, d) := by
  have hstep : step none (.creating (temporary path)) (·.create here (temporary path))
      { disk := d } = .error ⟨[.creating (temporary path)], .system e⟩ { disk := d } := by
    rw [step, h]
  obtain ⟨e', herror⟩ := Disk.exists_unlink_eq_error hnone
  have hclear : clear here path { disk := d } = { disk := d } := by
    unfold clear
    dsimp only
    rw [herror]
  unfold Table.saveOn Table.save steps
  rw [bind_of_error hstep]
  dsimp only
  rw [hclear]

end Save

/-! ### Names in an empty directory -/

section Names

variable {name : String}

/-- A name without slashes is a path with this last name, and its temporary path is a name. -/
theorem Path.isLast_self (hnamed : IsNamed name.toList) (hup : name ≠ "..")
    (hslash : '/' ∉ name.toList) : IsLast name name := by
  have hjoin : join "" name = name := by simp [join]
  have hparts := parts_join "" hnamed hslash
  have hempty : parts "" = [] := rfl
  rw [hjoin, hempty, List.nil_append] at hparts
  refine ⟨by rw [hparts]; rfl, ?_, hup⟩
  rintro rfl
  exact hnamed.2 rfl

theorem Path.temporary_self (hnamed : IsNamed name.toList) (hup : name ≠ "..")
    (hslash : '/' ∉ name.toList) : temporary name = temporaryName name := by
  have hlast := isLast_self hnamed hup hslash
  have hcomponents : components name = [name.toList] := by
    rw [components, pieces_of_relative (isAbsolute_of_not_mem hslash),
      Text.splitOn_of_not_mem hslash, isAbsolute_of_not_mem hslash]
    exact trimBack_cons hnamed
  have hparent : parent name = "" := by
    rw [parent, hcomponents, isAbsolute_of_not_mem hslash]
    rfl
  have hjoin : join "" (temporaryName name) = temporaryName name := by simp [join]
  rw [Path.temporary_eq, hlast.temporaryBase_eq, hparent, hjoin]

/-- A name that is a path on its own is short enough if five bytes can be added to it. -/
theorem Path.fits_self_iff (hnamed : IsNamed name.toList) (hup : name ≠ "..")
    (hslash : '/' ∉ name.toList) :
    Fits name name ↔ Disk.nameLength name + 5 ≤ Disk.longestName := by
  refine ⟨Fits.name_le, fun hle => ⟨hle, ?_⟩⟩
  rw [temporary_self hnamed hup hslash,
    Disk.nameLength_temporaryName (isLast_self hnamed hup hslash)]
  exact Nat.le_trans hle (by decide)

/-- A tree that holds nothing but its root. -/
def Disk.bare : Disk :=
  ⟨[([], .directory)]⟩

theorem Disk.get?_bare_concat (l : Location) (name : String) : bare.get? (l ++ [name]) = none := by
  cases l <;> rfl

/-- In an empty directory, a file could be written under every name that is not too long. -/
theorem Disk.takesFile_self (hnamed : IsNamed name.toList) (hup : name ≠ "..")
    (hslash : '/' ∉ name.toList) (hnul : '\x00' ∉ name.toList)
    (hlength : nameLength name ≤ longestName) :
    TakesFile bare [] name name := by
  have hlast := isLast_self hnamed hup hslash
  have hpath : pathError? name = none := by
    have hne : name ≠ "" := fun he => hnamed.1 (by rw [he]; rfl)
    have hle : nameLength name ≤ longestPath := Nat.le_trans hlength (by decide)
    rw [pathError?, if_neg hnul, if_neg hne, if_neg (Nat.not_lt.2 hle)]
  have hstep : bare.step [] name = .ok [name] :=
    step_eq_ok_iff.2 ⟨rfl, .inr (.inr ⟨hlast.ne_dot, hup, hlength, rfl⟩)⟩
  have hresolve : bare.resolve [] name = .ok [name] := by
    refine resolve_eq_ok_iff.2 ⟨hpath, [], ?_, rfl, ?_⟩
    · rw [namesOf_of_not_mem hnamed.1 hslash, startOf, isAbsolute_of_not_mem hslash]
      rfl
    · rw [namesOf_of_not_mem hnamed.1 hslash]
      exact follow_cons_eq_ok_iff.2 ⟨_, hstep, rfl⟩
  have hend : endsInSlash name = false := by
    rw [endsInSlash, decide_eq_false_iff_not]
    exact fun he => hslash (List.mem_of_getLast? he)
  refine ⟨hlast, ⟨[name], bare.put [name] (.file []), ?_⟩, ?_⟩
  · rw [create, hresolve]
    dsimp only
    rw [← List.nil_append [name], get?_bare_concat, hend]
    rfl
  · rw [node?]
    cases hr : bare.resolve [] (temporary name) with
    | error e => rfl
    | ok l =>
      obtain ⟨parent, -, rfl⟩ := exists_of_resolve_temporary hr
      exact get?_bare_concat _ _

theorem Disk.nameLength_replicate (n : ℕ) :
    nameLength (String.ofList (List.replicate n 'a')) = n := by
  rw [nameLength, String.toList_ofList]
  induction n with
  | zero => rfl
  | succ n ih =>
    rw [List.replicate_succ, ← List.singleton_append, Text.byteLength_append, ih]
    exact Nat.add_comm _ _

theorem Path.isNamed_replicate {n : ℕ} (hpos : 0 < n) :
    IsNamed (String.ofList (List.replicate n 'a')).toList := by
  rw [String.toList_ofList]
  refine ⟨by simp; omega, fun he => ?_⟩
  have hmem : '.' ∈ List.replicate n 'a' := by simp [he]
  exact absurd (List.eq_of_mem_replicate hmem) (by decide)

theorem not_mem_replicate {c : Char} {n : ℕ} (hc : c ≠ 'a') :
    c ∉ (String.ofList (List.replicate n 'a')).toList := by
  rw [String.toList_ofList]
  exact fun hmem => hc (List.eq_of_mem_replicate hmem)

theorem replicate_ne_up (n : ℕ) : String.ofList (List.replicate n 'a') ≠ ".." := by
  intro he
  have hmem : '.' ∈ (String.ofList (List.replicate n 'a')).toList := by simp [he]
  exact not_mem_replicate (by decide) hmem

theorem Disk.takesFile_replicate {n : ℕ} (hpos : 0 < n) (hle : n ≤ longestName) :
    TakesFile bare [] (String.ofList (List.replicate n 'a'))
      (String.ofList (List.replicate n 'a')) :=
  takesFile_self (isNamed_replicate hpos) (replicate_ne_up n) (not_mem_replicate (by decide))
    (not_mem_replicate (by decide)) (by rwa [nameLength_replicate])

theorem Path.fits_replicate_iff {n : ℕ} (hpos : 0 < n) :
    Fits (String.ofList (List.replicate n 'a')) (String.ofList (List.replicate n 'a')) ↔
      n + 5 ≤ Disk.longestName := by
  rw [fits_self_iff (isNamed_replicate hpos) (replicate_ne_up n) (not_mem_replicate (by decide)),
    Disk.nameLength_replicate]

end Names

/-! ### Saved tables -/

open Save in
/-- **When a table is saved.** Where it could be written directly, a save puts the whole table at
the path if the temporary name and path are not too long. Otherwise the temporary file cannot be
created, and nothing is saved. -/
theorem Table.saveOn_of_takesFile (table : Table) {d : Disk} {here : Location}
    {path name : String} (h : d.TakesFile here path name) :
    (Fits path name → ∃ d', table.saveOn here path d = (.ok (), d') ∧
      d'.node? here path = some (.file table.text)) ∧
    (¬Fits path name → table.saveOn here path d =
      (.error ⟨[.creating (temporary path)], .system .nameTooLong⟩, d)) := by
  constructor
  · intro hfits
    obtain ⟨directory, hholds⟩ := h.exists_holds
    have hcreate := h.create_temporary hholds hfits
    have hfile : ((d.put (directory ++ [temporaryName path]) (.file [])).append
        (directory ++ [temporaryName path]) table.text).get? (directory ++ [temporaryName path]) =
          some (.file table.text) := by
      simp [Disk.append]
    obtain ⟨-, hsame, -⟩ := Disk.create_eq_ok hcreate
    have hsame' := hsame.trans (Disk.sameBut_append hsame.isDirectory_eq' table.text)
    obtain ⟨d₂, hrename⟩ := h.rename_temporary hholds hfits hsame'.sameDirectories hfile
    refine exists_of_passes fun n =>
      ⟨rfl, fun _ _ => rfl, rfl, rfl, _, _, d₂, hcreate, ?_, hrename⟩
    rw [Disk.sync, hfile]
  · intro hfits
    exact saveOn_of_create_eq_error (h.create_temporary_of_not hfits) h.node?_eq

/-- The longest name under which a table is saved has 250 bytes. -/
theorem Table.saveOn_of_takesFile_longest :
    let name := String.ofList (List.replicate 250 'a')
    Disk.TakesFile .bare [] name name ∧ Fits name name ∧
      ∃ d', Table.saveOn {} [] name .bare = (.ok (), d') ∧
        d'.node? [] name = some (.file (Table.text {})) := by
  intro name
  have htakes : Disk.TakesFile .bare [] name name :=
    Disk.takesFile_replicate (by decide) (by decide)
  have hfits : Fits name name := (fits_replicate_iff (by decide)).2 (by decide)
  exact ⟨htakes, hfits, (Table.saveOn_of_takesFile {} htakes).1 hfits⟩

open Save in
/-- **A path at which a table could be written and is not saved.** Its name has 251 bytes, so it is
a name, but the temporary name is not. -/
theorem Table.saveOn_longest_name :
    let name := String.ofList (List.replicate 251 'a')
    Disk.TakesFile .bare [] name name ∧ Disk.nameLength name ≤ Disk.longestName ∧
      Table.saveOn {} [] name .bare =
        (.error ⟨[.creating (temporary name)], .system .nameTooLong⟩, .bare) := by
  intro name
  have htakes : Disk.TakesFile .bare [] name name :=
    Disk.takesFile_replicate (by decide) (by decide)
  have hlength : Disk.nameLength name ≤ Disk.longestName := by
    rw [Disk.nameLength_replicate]
    decide
  have hfits : ¬Fits name name := fun h =>
    absurd ((fits_replicate_iff (by decide)).1 h) (by decide)
  exact ⟨htakes, hlength,
    saveOn_of_create_eq_error (htakes.create_temporary_of_not hfits) htakes.node?_eq⟩

end BenchSweep
