import BenchSweep.Proofs.Text.Blank

/-!
# Words between blanks

The words of a text are what is left of it when its blanks are taken for gaps. The reader walks over
the text with the word that is still open; here its result is told by the text alone.

## Why a word has an end

A word is as long as it can be: what follows it is empty or starts with a blank. Without that, the
two characters of `ab` would be two words with no gap between them as well as one. With it, a text
has its words in one way only, and the relation is the reader (`words_eq_iff`).

## Main definitions

* `IsWords`: the words of a text.

## Main results

* `words_eq_iff`: the words that are read.
-/

namespace BenchSweep.Text

/-- The words of a text: the longest runs of characters that are not blank, in order. -/
inductive IsWords : List Char → List (List Char) → Prop
  | blank {s : List Char} (h : IsBlanks s) : IsWords s []
  | word {first w rest : List Char} {later : List (List Char)} (hfirst : IsBlanks first)
      (hne : w ≠ []) (hw : ∀ c ∈ w, isBlank c = false)
      (hend : ∀ c ∈ rest.head?, isBlank c = true) (hlater : IsWords rest later) :
      IsWords (first ++ (w ++ rest)) (w :: later)

/-- A blank in front adds no word. -/
theorem IsWords.cons_of_isBlank {c : Char} {s : List Char} {ws : List (List Char)}
    (hc : isBlank c = true) (h : IsWords s ws) : IsWords (c :: s) ws := by
  cases h with
  | blank h => exact .blank (List.forall_mem_cons.2 ⟨hc, h⟩)
  | word hfirst hne hw hend hlater =>
    have hblanks : IsBlanks (c :: _) := List.forall_mem_cons.2 ⟨hc, hfirst⟩
    exact .word hblanks hne hw hend hlater

/-! ### What the reader does -/

theorem wordsFrom_isBlanks_append {first : List Char} (h : IsBlanks first) (s : List Char) :
    wordsFrom [] (first ++ s) = wordsFrom [] s := by
  induction first with
  | nil => rfl
  | cons c first ih =>
    obtain ⟨hc, hfirst⟩ := List.forall_mem_cons.1 h
    rw [List.cons_append, wordsFrom, if_pos hc, if_pos rfl, ih hfirst]

/-- The open word takes in characters that are not blank. -/
theorem wordsFrom_append {w : List Char} (hw : ∀ c ∈ w, isBlank c = false)
    (current rest : List Char) :
    wordsFrom current (w ++ rest) = wordsFrom (w.reverse ++ current) rest := by
  induction w generalizing current with
  | nil => rfl
  | cons c w ih =>
    obtain ⟨hc, hw⟩ := List.forall_mem_cons.1 hw
    rw [List.cons_append, wordsFrom, if_neg (by simp [hc]), ih hw, List.reverse_cons,
      List.append_assoc, List.singleton_append]

/-- The open word ends at a blank, or with the text. -/
theorem wordsFrom_of_head {current rest : List Char} (hne : current ≠ [])
    (hend : ∀ c ∈ rest.head?, isBlank c = true) :
    wordsFrom current rest = current.reverse :: wordsFrom [] rest := by
  cases rest with
  | nil => rw [wordsFrom, if_neg hne, wordsFrom, if_pos rfl]
  | cons c rest =>
    rw [wordsFrom, if_pos (hend c rfl), if_neg hne, wordsFrom, if_pos (hend c rfl), if_pos rfl]

theorem IsWords.wordsFrom_eq {s : List Char} {ws : List (List Char)} (h : IsWords s ws) :
    wordsFrom [] s = ws := by
  induction h with
  | @blank s h =>
    have hread := wordsFrom_isBlanks_append h []
    rwa [List.append_nil] at hread
  | word hfirst hne hw hend _ ih =>
    rw [wordsFrom_isBlanks_append hfirst, wordsFrom_append hw, List.append_nil,
      wordsFrom_of_head (mt List.reverse_eq_nil_iff.1 hne) hend, List.reverse_reverse, ih]

/-- An open word, whose characters are kept in reverse, in front of a text that ends it. -/
theorem IsWords.reverse_append {current rest : List Char} {later : List (List Char)}
    (hcurrent : ∀ c ∈ current, isBlank c = false) (hne : current ≠ [])
    (hend : ∀ c ∈ rest.head?, isBlank c = true) (hlater : IsWords rest later) :
    IsWords (current.reverse ++ rest) (current.reverse :: later) := by
  have hne' : current.reverse ≠ [] := mt List.reverse_eq_nil_iff.1 hne
  have hword := IsWords.word isBlanks_nil hne' (fun c hc => hcurrent c (List.mem_reverse.1 hc))
    hend hlater
  rwa [List.nil_append] at hword

/-- The open word is put back in front of what is still to be read. -/
theorem isWords_wordsFrom {current : List Char} (hcurrent : ∀ c ∈ current, isBlank c = false)
    (s : List Char) : IsWords (current.reverse ++ s) (wordsFrom current s) := by
  induction s generalizing current with
  | nil =>
    rw [wordsFrom]
    split
    next hnil =>
      subst hnil
      exact .blank isBlanks_nil
    next hne => exact .reverse_append hcurrent hne (by simp) (.blank isBlanks_nil)
  | cons c s ih =>
    rw [wordsFrom]
    split
    next hc =>
      have hlater : IsWords (c :: s) (wordsFrom [] s) :=
        .cons_of_isBlank hc (ih (List.forall_mem_nil _))
      split
      next hnil =>
        subst hnil
        exact hlater
      next hne => exact .reverse_append hcurrent hne (by simpa using hc) hlater
    next hc =>
      have hlater := ih (List.forall_mem_cons.2 ⟨Bool.eq_false_iff.2 hc, hcurrent⟩)
      rwa [List.reverse_cons, List.append_assoc, List.singleton_append] at hlater

/-- **The words that are read** are the words of the text. -/
theorem words_eq_iff {s : String} {ws : List String} :
    words s = ws ↔ IsWords s.toList (ws.map String.toList) := by
  have hchars : String.toList ∘ String.ofList = id := funext fun _ => String.toList_ofList
  have htext : String.ofList ∘ String.toList = id := funext fun _ => String.ofList_toList
  constructor
  · rintro rfl
    rw [words, List.map_map, hchars, List.map_id]
    exact isWords_wordsFrom (List.forall_mem_nil _) s.toList
  · intro h
    rw [words, h.wordsFrom_eq, List.map_map, htext, List.map_id]

-- blanks may be any of the twenty-five, and stand anywhere
example : words " java\t-jar\u00a0 x.jar\n" = ["java", "-jar", "x.jar"] := by
  decide +kernel

end BenchSweep.Text
