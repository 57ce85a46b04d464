import BenchSweep.Proofs.Path.Names

/-!
# The parts of a path

One path has many spellings: a slash may be repeated or stand at the end, and `.` denotes nothing,
except in front of a relative path. The parts of a path are what stands between its slashes without
all this, and two spellings are of the same path if they start at the same place and have the same
parts.

A path is taken apart and put together as a text, from its end. What is left at every point is the
text of a clean list of pieces, and from this the parts can be read.

## Why there are clean pieces

The text above the last part of a path is found by dropping what stands after it and trimming what
is left, and a name is added by a slash unless there is one already. To follow both on texts would
need a case for each way in which slashes and dots can stand at an end. `IsClean` describes what
trimming leaves, in reverse, and the texts of clean pieces can be split and joined without such
cases; every path has clean pieces above its last part (`isClean_parent`).

## Scope

A `..` is a part like any other. It is not resolved, since where it leads depends on the tree, and a
path that ends in it has no last name. Two spellings of one path need not be equal as texts, and two
paths that are not the same may still lead to one place.

## Main definitions

* `Path.parts`: the parts of a path.
* `Path.Same`: two spellings of one path.
* `Path.IsLast`: the last part of a path, if it is an ordinary name.

## Main results

* `Path.fileName?_eq_some_iff`: the last name of a path is its last part.
* `Path.IsLast.parts_eq`, `Path.parts_join`: a path is the one above its last part, and this part.
* `Path.parent_join_parent`: the text of the path above the last part stays when the part is
  replaced.
-/

namespace BenchSweep.Path

/-! ### Parts -/

/-- What denotes something wherever it stands. -/
def IsNamed (piece : List Char) : Prop :=
  piece ≠ [] ∧ piece ≠ ['.']

instance : DecidablePred IsNamed :=
  fun _ => inferInstanceAs (Decidable (_ ∧ _))

/-- The parts among the pieces of a path. -/
def partsOf (absolute : Bool) (pieces : List (List Char)) : List (List Char) :=
  (if absolute = false ∧ pieces.head? = some ['.'] then [['.']] else []) ++ pieces.filter IsNamed

/-- The parts of a path: what stands between its slashes and denotes something. A `.` in front of a
relative path counts. -/
def parts (path : String) : List (List Char) :=
  partsOf (isAbsolute path) (Text.splitOn '/' path.toList)

/-- Two spellings of one path. -/
structure Same (path path' : String) : Prop where
  isAbsolute_eq : isAbsolute path = isAbsolute path'
  parts_eq : parts path = parts path'

/-- The last part of a path, if it is an ordinary name. -/
structure IsLast (path name : String) : Prop where
  getLast?_eq : (parts path).getLast? = some name.toList
  ne_dot : name ≠ "."
  ne_up : name ≠ ".."

variable {absolute : Bool} {ps : List (List Char)} {piece : List Char}

theorem filter_concat_isNamed (ps : List (List Char)) (piece : List Char) :
    (ps ++ [piece]).filter IsNamed =
      ps.filter IsNamed ++ if IsNamed piece then [piece] else [] := by
  rw [List.filter_append]
  by_cases h : IsNamed piece <;> simp [h]

theorem partsOf_concat (h : IsNamed piece) :
    partsOf absolute (ps ++ [piece]) = partsOf absolute ps ++ [piece] := by
  rw [partsOf, partsOf, filter_concat_isNamed, if_pos h]
  cases ps with
  | nil => simp [h.2]
  | cons first ps => simp

theorem partsOf_concat_of_not (h : ¬IsNamed piece) (hne : ps ≠ []) :
    partsOf absolute (ps ++ [piece]) = partsOf absolute ps := by
  rw [partsOf, partsOf, filter_concat_isNamed, if_neg h, List.append_nil,
    List.head?_append_of_ne_nil _ hne]

/-- What is trimmed off is not a part. -/
theorem partsOf_trimBack (absolute : Bool) (ps : List (List Char)) :
    partsOf absolute (trimBack absolute ps).reverse = partsOf absolute ps.reverse := by
  fun_induction trimBack absolute ps with
  | case1 => rfl
  | case2 piece h =>
    rcases h with rfl | ⟨rfl, rfl⟩
    · simp [partsOf, IsNamed]
    · rfl
  | case3 => rfl
  | case4 piece rest hrest h ih =>
    have hnot : ¬IsNamed piece := fun hn => h.elim hn.1 hn.2
    have hne : rest.reverse ≠ [] := by simpa using hrest
    rw [ih, List.reverse_cons, partsOf_concat_of_not hnot hne]
  | case5 => rfl

/-- What is left is a part at its end, or it is the `.` in front of a relative path. -/
theorem isNamed_or_of_trimBack {rest : List (List Char)}
    (h : trimBack absolute ps = piece :: rest) :
    IsNamed piece ∨ absolute = false ∧ piece = ['.'] ∧ rest = [] := by
  fun_induction trimBack absolute ps with
  | case1 => cases h
  | case2 => cases h
  | case3 piece' hp =>
    obtain ⟨rfl, rfl⟩ := List.cons.inj h
    obtain ⟨hne, hdot⟩ := not_or.1 hp
    by_cases he : piece' = ['.']
    · refine .inr ⟨?_, he, rfl⟩
      cases absolute with
      | false => rfl
      | true => exact absurd ⟨rfl, he⟩ hdot
    · exact .inl ⟨hne, he⟩
  | case4 _ _ _ _ ih => exact ih h
  | case5 piece' rest' _ hp =>
    obtain ⟨rfl, -⟩ := List.cons.inj h
    exact .inl (not_or.1 hp)

theorem trimBack_cons (h : IsNamed piece) : trimBack absolute (piece :: ps) = piece :: ps := by
  cases ps with
  | nil => rw [trimBack, if_neg (not_or.2 ⟨h.1, fun hp => h.2 hp.2⟩)]
  | cons next rest => rw [trimBack, if_neg (not_or.2 h)]; simp

theorem trimBack_trimBack (absolute : Bool) (ps : List (List Char)) :
    trimBack absolute (trimBack absolute ps) = trimBack absolute ps := by
  cases h : trimBack absolute ps with
  | nil => rfl
  | cons piece rest =>
    rcases isNamed_or_of_trimBack h with hn | ⟨rfl, rfl, rfl⟩
    · exact trimBack_cons hn
    · rfl

/-- A name without slashes does not start at the root. -/
theorem isAbsolute_of_not_mem {name : String} (h : '/' ∉ name.toList) :
    isAbsolute name = false := by
  rw [isAbsolute, decide_eq_false_iff_not]
  exact fun he => h (List.mem_of_head? he)

/-- In front of an absolute path stands the slash of the root. -/
theorem splitOn_of_isAbsolute {path : String} (h : isAbsolute path = true) :
    Text.splitOn '/' path.toList = [] :: pieces path := by
  obtain ⟨rest, hrest⟩ := List.head?_eq_some_iff.1 (of_decide_eq_true h)
  have hsplit : Text.splitOn '/' path.toList = [] :: Text.splitOn '/' rest := by
    rw [hrest]
    exact Text.splitOn_append '/' [] rest
  rw [pieces, hsplit]
  dsimp only
  rw [if_pos h]

theorem pieces_of_relative {path : String} (h : isAbsolute path = false) :
    pieces path = Text.splitOn '/' path.toList := by
  unfold pieces
  split
  next rest hsplit => rw [h, if_neg Bool.false_ne_true, hsplit]
  next => rfl

/-- The slash of the root is not in front of a part. -/
theorem parts_eq_partsOf_pieces (path : String) :
    parts path = partsOf (isAbsolute path) (pieces path) := by
  cases h : isAbsolute path with
  | true =>
    rw [parts, h, splitOn_of_isAbsolute h]
    simp [partsOf, IsNamed]
  | false => rw [parts, h, pieces_of_relative h]

theorem parts_eq (path : String) :
    parts path = partsOf (isAbsolute path) (components path).reverse := by
  rw [components, partsOf_trimBack, List.reverse_reverse, parts_eq_partsOf_pieces]

/-! ### The last part -/

/-- The last name of a path is its last part. -/
theorem fileName?_eq_some_iff {path name : String} :
    fileName? path = some name ↔ IsLast path name := by
  have hparts := parts_eq path
  unfold fileName?
  cases hc : components path with
  | nil =>
    rw [hc, List.reverse_nil] at hparts
    have hnil : parts path = [] := by simpa [partsOf] using hparts
    refine iff_of_false (by simp) fun h => ?_
    simpa [hnil] using h.getLast?_eq
  | cons last rest =>
    rw [hc, List.reverse_cons] at hparts
    have hlast : (parts path).getLast? = some last := by
      rcases isNamed_or_of_trimBack hc with hn | ⟨habs, rfl, rfl⟩
      · rw [hparts, partsOf_concat hn, List.getLast?_concat]
      · rw [hparts, habs]
        rfl
    dsimp only
    split
    next hdots =>
      refine iff_of_false (by simp) fun h => ?_
      have hname : last = name.toList := Option.some.inj (hlast.symm.trans h.getLast?_eq)
      rcases hdots with rfl | rfl
      · exact h.ne_dot (String.toList_inj.1 hname.symm)
      · exact h.ne_up (String.toList_inj.1 hname.symm)
    next hordinary =>
      obtain ⟨hdot, hup⟩ := not_or.1 hordinary
      constructor
      · intro h
        obtain rfl := Option.some.inj h
        refine ⟨by rw [hlast, String.toList_ofList], fun he => hdot ?_, fun he => hup ?_⟩
        · simpa using congrArg String.toList he
        · simpa using congrArg String.toList he
      · intro h
        rw [Option.some.inj (hlast.symm.trans h.getLast?_eq), String.ofList_toList]

/-- A path without a last name has no parts, or it is the current directory, or it ends in `..`. -/
theorem fileName?_eq_none_iff {path : String} :
    fileName? path = none ↔
      parts path = [] ∨ parts path = [['.']] ∨ (parts path).getLast? = some ['.', '.'] := by
  have hparts := parts_eq path
  unfold fileName?
  cases hc : components path with
  | nil =>
    rw [hc, List.reverse_nil] at hparts
    exact iff_of_true rfl (.inl (by simpa [partsOf] using hparts))
  | cons last rest =>
    rw [hc, List.reverse_cons] at hparts
    rcases isNamed_or_of_trimBack hc with hn | ⟨habs, rfl, rfl⟩
    · rw [partsOf_concat hn] at hparts
      have hne : partsOf (isAbsolute path) rest.reverse ++ [last] ≠ [['.']] := by
        intro he
        have hlast := congrArg List.getLast? he
        rw [List.getLast?_concat] at hlast
        exact hn.2 (Option.some.inj hlast)
      simp [hparts, hne, hn.2]
    · rw [habs] at hparts
      exact iff_of_true rfl (.inr (.inl hparts))

/-! ### The text of pieces -/

/-- Pieces in reverse that are the end of a path: they are trimmed, and a relative path does not
start with an empty one. -/
structure IsClean (absolute : Bool) (ps : List (List Char)) : Prop where
  trimBack_eq : trimBack absolute ps = ps
  not_mem : ∀ piece ∈ ps, '/' ∉ piece
  ne_nil : absolute = false → ∀ piece ∈ ps.getLast?, piece ≠ []

/-- A relative path that starts with an empty piece is empty. -/
theorem pieces_of_head? {path : String} (habs : isAbsolute path = false)
    (h : (pieces path).head? = some []) : pieces path = [[]] := by
  have hjoin := Text.intercalate_splitOn '/' path.toList
  rw [← pieces_of_relative habs] at hjoin
  obtain ⟨rest, hrest⟩ := List.head?_eq_some_iff.1 h
  cases rest with
  | nil => exact hrest
  | cons next rest =>
    -- the text would start with the slash after the empty piece
    rw [hrest, List.intercalate_cons_cons] at hjoin
    rw [isAbsolute, ← hjoin] at habs
    simp at habs

/-- What a path ends in, down to one of its pieces. -/
theorem isClean_of_suffix {path : String} (hsuffix : ps <:+ (pieces path).reverse) :
    IsClean (isAbsolute path) (trimBack (isAbsolute path) ps) := by
  obtain ⟨before, hbefore⟩ := (trimBack_suffix (isAbsolute path) ps).trans hsuffix
  refine ⟨trimBack_trimBack _ _, fun piece hpiece => ?_, fun habs piece hlast hnil => ?_⟩
  · have hmem : piece ∈ (pieces path).reverse := by
      rw [← hbefore]
      exact List.mem_append_right _ hpiece
    exact not_mem_of_mem_pieces (List.mem_reverse.1 hmem)
  · subst hnil
    have hhead : (pieces path).head? = some [] := by
      rw [← List.getLast?_reverse, ← hbefore, List.getLast?_append, Option.mem_def.1 hlast]
      rfl
    -- the only piece is the empty one, and it is trimmed off
    obtain ⟨front, hfront⟩ := List.getLast?_eq_some_iff.1 (Option.mem_def.1 hlast)
    have hlength := congrArg List.length hbefore
    rw [pieces_of_head? habs hhead, hfront] at hlength
    simp only [List.length_append, List.length_reverse, List.length_singleton] at hlength
    obtain rfl : front = [] := List.eq_nil_of_length_eq_zero (by omega)
    exact ne_nil_of_trimBack hfront rfl

theorem toList_ofPieces (absolute : Bool) (ps : List (List Char)) :
    (ofPieces absolute ps).toList =
      (if absolute then ['/'] else []) ++ ['/'].intercalate ps.reverse := by
  rw [ofPieces, String.toList_ofList]

namespace IsClean

theorem cons (h : IsClean absolute ps) (hnamed : IsNamed piece) (hslash : '/' ∉ piece) :
    IsClean absolute (piece :: ps) := by
  refine ⟨trimBack_cons hnamed, List.forall_mem_cons.2 ⟨hslash, h.not_mem⟩, ?_⟩
  intro habs last hlast
  cases ps with
  | nil =>
    obtain rfl := Option.some.inj hlast
    exact hnamed.1
  | cons next rest => exact h.ne_nil habs last hlast

theorem splitOn_text (h : IsClean absolute ps) (hne : ps ≠ []) :
    Text.splitOn '/' (['/'].intercalate ps.reverse) = ps.reverse :=
  Text.splitOn_intercalate (by simpa using hne)
    fun piece hpiece => h.not_mem piece (List.mem_reverse.1 hpiece)

/-- The text of pieces starts at the root if it is meant to. -/
theorem isAbsolute_ofPieces (h : IsClean absolute ps) :
    isAbsolute (ofPieces absolute ps) = absolute := by
  cases absolute with
  | true =>
    rw [isAbsolute, toList_ofPieces]
    rfl
  | false =>
    rw [← Bool.not_eq_true]
    intro habs
    have htext : (ofPieces false ps).toList = ['/'].intercalate ps.reverse := toList_ofPieces _ _
    by_cases hps : ps = []
    · subst hps
      cases habs
    · -- an absolute path has an empty piece in front of the slash of the root
      have hsplit := splitOn_of_isAbsolute habs
      rw [htext, h.splitOn_text hps] at hsplit
      have hlast : ps.getLast? = some [] := by
        rw [← List.head?_reverse, hsplit]
        rfl
      exact h.ne_nil rfl [] hlast rfl

/-- The pieces of a text are those that it was made of. -/
theorem pieces_ofPieces (h : IsClean absolute ps) (hne : ps ≠ []) :
    pieces (ofPieces absolute ps) = ps.reverse := by
  have habs := h.isAbsolute_ofPieces
  have htext := toList_ofPieces absolute ps
  cases absolute with
  | true =>
    have hsplit := splitOn_of_isAbsolute habs
    rw [htext, if_pos rfl, List.singleton_append] at hsplit
    have hsplit' := Text.splitOn_append '/' [] (['/'].intercalate ps.reverse)
    rw [h.splitOn_text hne] at hsplit'
    exact (List.cons.inj (hsplit.symm.trans hsplit')).2
  | false =>
    rw [pieces_of_relative habs, htext]
    exact h.splitOn_text hne

theorem components_ofPieces (h : IsClean absolute ps) :
    components (ofPieces absolute ps) = ps := by
  rw [components, h.isAbsolute_ofPieces]
  by_cases hps : ps = []
  · subst hps
    cases absolute <;> rfl
  · rw [h.pieces_ofPieces hps, List.reverse_reverse, h.trimBack_eq]

theorem parts_ofPieces (h : IsClean absolute ps) :
    parts (ofPieces absolute ps) = partsOf absolute ps.reverse := by
  rw [parts_eq, h.components_ofPieces, h.isAbsolute_ofPieces]

/-- A name is appended to a text of pieces as one more piece. -/
theorem join_ofPieces (h : IsClean absolute ps) {name : String} (hslash : '/' ∉ name.toList) :
    join (ofPieces absolute ps) name = ofPieces absolute (name.toList :: ps) := by
  have hname := isAbsolute_of_not_mem hslash
  rw [← String.toList_inj, toList_ofPieces, List.reverse_cons]
  by_cases hps : ps = []
  · subst hps
    cases absolute with
    | true =>
      have hroot : ofPieces true [] = "/" := rfl
      rw [hroot, join, hname]
      simp
    | false =>
      have hhere : ofPieces false [] = "" := rfl
      rw [hhere, join]
      simp
  · obtain ⟨piece, rest, rfl⟩ := List.exists_cons_of_ne_nil hps
    have hne : piece ≠ [] := ne_nil_of_trimBack h.trimBack_eq
    have hreverse : (piece :: rest).reverse.getLast? = some piece := List.getLast?_reverse
    have hlast : (ofPieces absolute (piece :: rest)).toList.getLast? = piece.getLast? := by
      rw [toList_ofPieces, List.getLast?_append, Text.getLast?_intercalate '/' hreverse hne,
        List.getLast?_eq_some_getLast hne]
      rfl
    have hempty : (ofPieces absolute (piece :: rest)).toList ≠ [] := fun he =>
      hne (List.getLast?_eq_none_iff.1 (hlast.symm.trans (by rw [he]; rfl)))
    have hend : (ofPieces absolute (piece :: rest)).toList.getLast? ≠ some '/' := fun he =>
      h.not_mem piece List.mem_cons_self (List.mem_of_getLast? (hlast.symm.trans he))
    rw [join, hname, Bool.false_or, if_neg (by simpa using hempty), if_neg hend,
      String.toList_append, String.toList_append, toList_ofPieces,
      Text.intercalate_concat_of_ne_nil _ (by simp), List.append_assoc, List.append_assoc]
    rfl

end IsClean

/-! ### The path above the last part -/

variable {path name : String}

theorem IsLast.isNamed (h : IsLast path name) : IsNamed name.toList := by
  obtain ⟨before, after, -, -, hne, hdot, -⟩ :=
    exists_pieces_of_fileName? (fileName?_eq_some_iff.2 h)
  exact ⟨hne, fun he => hdot (String.toList_inj.1 he)⟩

theorem IsLast.not_mem (h : IsLast path name) : '/' ∉ name.toList :=
  not_mem_of_fileName? (fileName?_eq_some_iff.2 h)

theorem IsLast.exists_components (h : IsLast path name) :
    ∃ rest, components path = name.toList :: rest := by
  have hname := fileName?_eq_some_iff.2 h
  unfold fileName? at hname
  cases hc : components path with
  | nil => simp [hc] at hname
  | cons last rest =>
    rw [hc] at hname
    dsimp only at hname
    split at hname
    · cases hname
    · rw [← Option.some.inj hname, String.toList_ofList]
      exact ⟨rest, rfl⟩

theorem drop_components_suffix (path : String) :
    (components path).drop 1 <:+ (pieces path).reverse :=
  (List.drop_suffix 1 _).trans (trimBack_suffix _ _)

/-- What is left above the last part is the text of clean pieces. -/
theorem isClean_parent (path : String) :
    IsClean (isAbsolute path) (trimBack (isAbsolute path) ((components path).drop 1)) :=
  isClean_of_suffix (drop_components_suffix path)

theorem isAbsolute_parent (path : String) : isAbsolute (parent path) = isAbsolute path :=
  (isClean_parent path).isAbsolute_ofPieces

/-- A path is the one above its last part, and this part. -/
theorem IsLast.parts_eq (h : IsLast path name) :
    parts path = parts (parent path) ++ [name.toList] := by
  obtain ⟨rest, hrest⟩ := h.exists_components
  have habove : parts (parent path) = partsOf (isAbsolute path) rest.reverse := by
    rw [parent, (isClean_parent path).parts_ofPieces, partsOf_trimBack, hrest]
    rfl
  rw [Path.parts_eq path, hrest, List.reverse_cons, partsOf_concat h.isNamed, habove]

/-- A name that is appended to a path is its last part. -/
theorem parts_join (base : String) (hnamed : IsNamed name.toList) (hslash : '/' ∉ name.toList) :
    parts (join base name) = parts base ++ [name.toList] := by
  have hname := isAbsolute_of_not_mem hslash
  have hpieces : Text.splitOn '/' name.toList = [name.toList] := Text.splitOn_of_not_mem hslash
  rw [parts, isAbsolute_join hname, parts]
  unfold join
  rw [hname, Bool.false_or]
  split
  next hempty =>
    have hbase : base = "" := String.toList_inj.1 (of_decide_eq_true hempty)
    subst hbase
    rw [hpieces]
    have hconcat : partsOf (isAbsolute "") ([] ++ [name.toList]) =
        partsOf (isAbsolute "") [] ++ [name.toList] := partsOf_concat hnamed
    exact hconcat
  split
  next hend =>
    obtain ⟨front, hfront⟩ := List.getLast?_eq_some_iff.1 hend
    rw [String.toList_append, hfront, List.append_assoc, List.singleton_append,
      Text.splitOn_append, Text.splitOn_append, hpieces, partsOf_concat hnamed]
    have hnil : Text.splitOn '/' [] = [[]] := rfl
    rw [hnil, partsOf_concat_of_not (fun hn => hn.1 rfl) (Text.splitOn_ne_nil '/' front)]
  · have hslashed : ("/" : String).toList = ['/'] := rfl
    rw [String.toList_append, String.toList_append, List.append_assoc, hslashed,
      List.singleton_append, Text.splitOn_append, hpieces, partsOf_concat hnamed]

/-- **The path above the last part stays as it is spelled** when this part is replaced. -/
theorem parent_join_parent (hnamed : IsNamed name.toList) (hslash : '/' ∉ name.toList) :
    parent (join (parent path) name) = parent path := by
  have hclean := isClean_parent path
  have hjoin := hclean.join_ofPieces hslash
  have hcons := hclean.cons hnamed hslash
  calc parent (join (parent path) name)
      = ofPieces (isAbsolute path) (trimBack (isAbsolute path)
          (trimBack (isAbsolute path) ((components path).drop 1))) := by
        rw [parent.eq_def path, hjoin, parent, hcons.isAbsolute_ofPieces,
          hcons.components_ofPieces]
        rfl
    _ = parent path := by rw [trimBack_trimBack, parent]

/-! ### The characters of a path -/

variable {c : Char}

theorem mem_of_mem_join {base : String} (h : c ∈ (join base name).toList) :
    c ∈ base.toList ∨ c = '/' ∨ c ∈ name.toList := by
  unfold join at h
  split at h
  · exact .inr (.inr h)
  split at h
  · rw [String.toList_append, List.mem_append] at h
    exact h.imp_right .inr
  · rw [String.toList_append, String.toList_append, List.mem_append, List.mem_append] at h
    rcases h with (h | h) | h
    · exact .inl h
    · exact .inr (.inl (List.mem_singleton.1 h))
    · exact .inr (.inr h)

theorem mem_of_mem_piece (h : piece ∈ pieces path) (hc : c ∈ piece) : c ∈ path.toList :=
  Text.mem_of_mem_splitOn (mem_splitOn_of_mem_pieces h) hc

theorem mem_of_mem_parent (h : c ∈ (parent path).toList) : c = '/' ∨ c ∈ path.toList := by
  rw [parent, toList_ofPieces, List.mem_append] at h
  rcases h with h | h
  · split at h
    · exact .inl (List.mem_singleton.1 h)
    · exact absurd h List.not_mem_nil
  · rcases Text.mem_intercalate h with h | ⟨piece, hpiece, hc⟩
    · exact .inl (List.mem_singleton.1 h)
    · have hsuffix := (trimBack_suffix (isAbsolute path) _).trans (drop_components_suffix path)
      have hmem := hsuffix.subset (List.mem_reverse.1 hpiece)
      exact .inr (mem_of_mem_piece (List.mem_reverse.1 hmem) hc)

theorem mem_of_mem_fileName? (h : fileName? path = some name) (hc : c ∈ name.toList) :
    c ∈ path.toList := by
  obtain ⟨before, after, hpieces, -⟩ := exists_pieces_of_fileName? h
  have hmem : name.toList ∈ pieces path := by simp [hpieces]
  exact mem_of_mem_piece hmem hc

end BenchSweep.Path
