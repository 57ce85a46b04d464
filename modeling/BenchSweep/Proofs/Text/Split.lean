import BenchSweep.Text.Blank
import Mathlib.Data.List.Basic

/-!
# Texts between separators

The pieces of a text are those of the standard library's `List.splitOn`, so what is known of these
holds of them: the pieces, with separators between them, are the text again, and pieces in which the
separator does not stand are found again when they are split.

## Scope

Splitting never drops anything: a text with `n` separators has `n + 1` pieces, and empty ones count.
What drops blank pieces is a reader of entries, and what drops the last empty line is a reader of
lines; both are built on this and are shown elsewhere.

## Main results

* `splitOn_eq`: the pieces are those of the standard library.
* `intercalate_splitOn`, `splitOn_intercalate`: pieces and their text.
* `not_mem_of_mem_splitOn`: the pieces of a text have no separators.
* `flatMap_intercalate`, `mem_intercalate`: what is made of pieces, and what stands in them.
-/

namespace BenchSweep.Text

theorem splitOnFrom_eq (sep : Char) (current s : List Char) :
    splitOnFrom sep current s = s.splitOnPPrepend (· == sep) current := by
  induction s generalizing current with
  | nil => rfl
  | cons c s ih =>
    rw [splitOnFrom, List.splitOnPPrepend_cons_eq_if, ih, ih, List.splitOnPPrepend_nil_right]
    simp only [beq_iff_eq]

/-- The pieces of a text are those of the standard library. -/
theorem splitOn_eq (sep : Char) (s : List Char) : splitOn sep s = s.splitOn sep :=
  splitOnFrom_eq sep [] s

/-- There is at least one piece. -/
theorem splitOn_ne_nil (sep : Char) (s : List Char) : splitOn sep s ≠ [] := by
  rw [splitOn_eq]
  exact List.splitOn_ne_nil sep s

theorem splitOn_append (sep : Char) (s rest : List Char) :
    splitOn sep (s ++ sep :: rest) = splitOn sep s ++ splitOn sep rest := by
  rw [splitOn_eq, splitOn_eq, splitOn_eq, List.splitOn_append_cons_self]

/-- A text without separators is one piece. -/
theorem splitOn_of_not_mem {sep : Char} {s : List Char} (h : sep ∉ s) : splitOn sep s = [s] := by
  rw [splitOn_eq, List.splitOn_eq_singleton h]

/-- The pieces of a text are the text again, with the separator between them. -/
theorem intercalate_splitOn (sep : Char) (s : List Char) :
    [sep].intercalate (splitOn sep s) = s := by
  rw [splitOn_eq, List.intercalate_splitOn]

/-- Pieces with separators between them are split into the pieces again. -/
theorem splitOn_intercalate {sep : Char} {pieces : List (List Char)} (hne : pieces ≠ [])
    (h : ∀ piece ∈ pieces, sep ∉ piece) : splitOn sep ([sep].intercalate pieces) = pieces := by
  rw [splitOn_eq, List.splitOn_intercalate sep h hne]

theorem not_mem_of_mem_splitOnFrom {sep : Char} {current s piece : List Char}
    (hc : sep ∉ current) (h : piece ∈ splitOnFrom sep current s) : sep ∉ piece := by
  induction s generalizing current with
  | nil =>
    obtain rfl := List.mem_singleton.1 h
    simpa using hc
  | cons c s ih =>
    rw [splitOnFrom] at h
    split at h
    · rcases List.mem_cons.1 h with rfl | h
      · simpa using hc
      · exact ih (List.not_mem_nil) h
    next hne => exact ih (List.not_mem_cons_of_ne_of_not_mem (Ne.symm hne) hc) h

/-- The pieces of a text have no separators. -/
theorem not_mem_of_mem_splitOn {sep : Char} {s piece : List Char} (h : piece ∈ splitOn sep s) :
    sep ∉ piece :=
  not_mem_of_mem_splitOnFrom List.not_mem_nil h

/-- Lines with their line feeds are split into the lines again. -/
theorem splitOn_flatMap_concat {sep : Char} {lines : List (List Char)}
    (h : ∀ line ∈ lines, sep ∉ line) :
    splitOn sep (lines.flatMap (· ++ [sep])) = lines ++ [[]] := by
  induction lines with
  | nil => rfl
  | cons line lines ih =>
    obtain ⟨hline, hlines⟩ := List.forall_mem_cons.1 h
    rw [List.flatMap_cons, List.append_assoc, List.singleton_append, splitOn_append,
      splitOn_of_not_mem hline, ih hlines]
    rfl

/-- Pieces with separators between them are the pieces but the last, each with its separator, and
then the last one. -/
theorem intercalate_concat {α : Type} (sep : List α) (pieces : List (List α)) (last : List α) :
    sep.intercalate (pieces ++ [last]) = pieces.flatMap (· ++ sep) ++ last := by
  induction pieces with
  | nil => exact List.intercalate_singleton
  | cons first pieces ih =>
    obtain ⟨next, later, hnext⟩ := List.exists_cons_of_ne_nil
      (List.append_ne_nil_of_right_ne_nil pieces (List.cons_ne_nil last []))
    rw [List.cons_append, hnext, List.intercalate_cons_cons, ← hnext, ih, List.flatMap_cons,
      List.append_assoc, List.append_assoc, List.append_assoc]

/-- One more piece comes after one more separator. -/
theorem intercalate_concat_of_ne_nil {α : Type} (sep : List α) {pieces : List (List α)}
    (hne : pieces ≠ []) (last : List α) :
    sep.intercalate (pieces ++ [last]) = sep.intercalate pieces ++ (sep ++ last) := by
  obtain ⟨front, previous, rfl⟩ := (List.eq_nil_or_concat pieces).resolve_left hne
  rw [List.concat_eq_append, intercalate_concat, intercalate_concat, List.flatMap_append,
    List.flatMap_singleton, List.append_assoc, List.append_assoc, List.append_assoc]

theorem mem_intercalate {α : Type} {sep : List α} {pieces : List (List α)} {a : α}
    (h : a ∈ sep.intercalate pieces) : a ∈ sep ∨ ∃ piece ∈ pieces, a ∈ piece := by
  induction pieces with
  | nil => exact absurd h List.not_mem_nil
  | cons first pieces ih =>
    cases pieces with
    | nil =>
      rw [List.intercalate_singleton] at h
      exact .inr ⟨first, List.mem_cons_self, h⟩
    | cons next later =>
      rw [List.intercalate_cons_cons, List.mem_append, List.mem_append] at h
      rcases h with (h | h) | h
      · exact .inr ⟨first, List.mem_cons_self, h⟩
      · exact .inl h
      · exact (ih h).imp_right fun ⟨piece, hpiece, ha⟩ => ⟨piece, List.mem_cons_of_mem _ hpiece, ha⟩

theorem mem_intercalate_of_mem {α : Type} {sep : List α} {pieces : List (List α)}
    {piece : List α} (h : piece ∈ pieces) {a : α} (ha : a ∈ piece) :
    a ∈ sep.intercalate pieces := by
  induction pieces with
  | nil => exact absurd h List.not_mem_nil
  | cons first pieces ih =>
    cases pieces with
    | nil =>
      rw [List.intercalate_singleton, ← List.mem_singleton.1 h]
      exact ha
    | cons next later =>
      rw [List.intercalate_cons_cons, List.mem_append, List.mem_append]
      rcases List.mem_cons.1 h with rfl | h
      · exact .inl (.inl ha)
      · exact .inr (ih h)

/-- What stands in a piece of a text stands in the text. -/
theorem mem_of_mem_splitOn {sep c : Char} {s piece : List Char} (h : piece ∈ splitOn sep s)
    (hc : c ∈ piece) : c ∈ s := by
  rw [← intercalate_splitOn sep s]
  exact mem_intercalate_of_mem h hc

/-- What is made of a text element by element is made of its pieces. -/
theorem flatMap_intercalate {α β : Type} (f : α → List β) (sep : List α)
    (pieces : List (List α)) :
    (sep.intercalate pieces).flatMap f =
      (sep.flatMap f).intercalate (pieces.map (·.flatMap f)) := by
  induction pieces with
  | nil => rfl
  | cons first pieces ih =>
    cases pieces with
    | nil => rw [List.map_singleton, List.intercalate_singleton, List.intercalate_singleton]
    | cons next later =>
      rw [List.map_cons, List.map_cons, List.intercalate_cons_cons, List.intercalate_cons_cons,
        List.flatMap_append, List.flatMap_append, ih, List.map_cons]

theorem flatten_intercalate {α : Type} (sep : List α) (pieces : List (List (List α))) :
    (List.intercalate [sep] pieces).flatten = sep.intercalate (pieces.map List.flatten) := by
  have h := flatMap_intercalate id [sep] pieces
  simpa only [List.flatMap_id, List.flatten_singleton] using h

/-- There is one separator less than there are pieces. -/
theorem count_intercalate {sep : Char} {pieces : List (List Char)}
    (h : ∀ piece ∈ pieces, sep ∉ piece) :
    ([sep].intercalate pieces).count sep = pieces.length - 1 := by
  induction pieces with
  | nil => rfl
  | cons piece pieces ih =>
    obtain ⟨hpiece, hpieces⟩ := List.forall_mem_cons.1 h
    cases pieces with
    | nil => rw [List.intercalate_singleton, List.count_eq_zero.2 hpiece]; rfl
    | cons next later =>
      rw [List.intercalate_cons_cons, List.count_append, List.count_append,
        List.count_eq_zero.2 hpiece, ih hpieces, List.count_singleton_self]
      simp [Nat.add_comm]

/-- A text of pieces ends as its last piece does. -/
theorem getLast?_intercalate (sep : Char) {pieces : List (List Char)} {piece : List Char}
    (h : pieces.getLast? = some piece) (hne : piece ≠ []) :
    ([sep].intercalate pieces).getLast? = piece.getLast? := by
  obtain ⟨c, hc⟩ := Option.ne_none_iff_exists'.1 (mt List.getLast?_eq_none_iff.1 hne)
  induction pieces with
  | nil => cases h
  | cons first pieces ih =>
    cases pieces with
    | nil =>
      have hfirst : first = piece := Option.some.inj h
      rw [List.intercalate_singleton, hfirst]
    | cons second later =>
      rw [List.getLast?_cons_cons] at h
      rw [List.intercalate_cons_cons, List.getLast?_append, ih h, hc]
      rfl

theorem intercalate_ne_nil {sep : Char} {pieces : List (List Char)} {piece : List Char}
    (h : pieces.getLast? = some piece) (hne : piece ≠ []) : [sep].intercalate pieces ≠ [] := by
  intro hnil
  have hend := getLast?_intercalate sep h hne
  rw [hnil] at hend
  exact hne (List.getLast?_eq_none_iff.1 hend.symm)

end BenchSweep.Text
