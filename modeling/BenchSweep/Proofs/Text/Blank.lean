import BenchSweep.Proofs.Number.Numeral
import BenchSweep.Text.Blank

/-!
# Texts between blanks

To trim a text is to find what stands between blanks. A numeral has no blanks in it, so it is found
again whatever blanks are put around it.

## Why trimming is a relation

What trimming leaves is told by three things: blanks stand around it, and neither its first nor its
last character is one. Any text has exactly one such part, which is empty if there are only blanks.
So results about lines and entries can say where a value stands, without saying how it is found, and
`isTrimmed_iff` is used once for each reader that trims.

## Scope

Blanks are the white space of Unicode, here and in lists and lines. Those of configurations are
fewer and belong to `BenchSweep.Proofs.Json.Grammar`.

## Main definitions

* `IsBlanks`: a run of blanks.
* `IsTrimmed`, `IsTrimmedEnd`: what is left of a text without the blanks at its ends, or at its end.

## Main results

* `exists_eq_append_trim`: what trimming takes off.
* `trim_append`: a text without blanks is found between blanks.
* `isTrimmed_iff`, `isTrimmedEnd_iff`, `trim_eq_nil_iff`: what trimming leaves.
-/

namespace BenchSweep

namespace Text

/-- A run of blanks, which may be empty. -/
def IsBlanks (s : List Char) : Prop :=
  ∀ c ∈ s, isBlank c = true

theorem isBlanks_nil : IsBlanks [] :=
  fun _ h => absurd h List.not_mem_nil

theorem isBlanks_takeWhile (s : List Char) : IsBlanks (s.takeWhile isBlank) :=
  fun _ h => List.mem_takeWhile_imp h

theorem exists_eq_trimEnd_append (s : List Char) :
    ∃ last, s = trimEnd s ++ last ∧ IsBlanks last := by
  refine ⟨(s.reverse.takeWhile isBlank).reverse, ?_, fun c hc => ?_⟩
  · rw [trimEnd, ← List.reverse_append, List.takeWhile_append_dropWhile, List.reverse_reverse]
  · exact isBlanks_takeWhile _ c (List.mem_reverse.1 hc)

/-- Trimming takes blanks off either end. -/
theorem exists_eq_append_trim (s : List Char) :
    ∃ first last, s = first ++ (trim s ++ last) ∧ IsBlanks first ∧ IsBlanks last := by
  obtain ⟨last, hlast, hblanks⟩ := exists_eq_trimEnd_append (trimStart s)
  refine ⟨s.takeWhile isBlank, last, ?_, isBlanks_takeWhile s, hblanks⟩
  rw [trim, ← hlast, trimStart, List.takeWhile_append_dropWhile]

/-- What is left of a text without the blanks at its ends. -/
structure IsTrimmed (value s : List Char) : Prop where
  exists_eq : ∃ first last, s = first ++ (value ++ last) ∧ IsBlanks first ∧ IsBlanks last
  isBlank_head : ∀ c ∈ value.head?, isBlank c = false
  isBlank_last : ∀ c ∈ value.getLast?, isBlank c = false

theorem dropWhile_isBlank_of_head {s : List Char} (h : ∀ c ∈ s.head?, isBlank c = false) :
    s.dropWhile isBlank = s := by
  cases s with
  | nil => rfl
  | cons c s => rw [List.dropWhile_cons_of_neg (by simp [h c rfl])]

theorem isBlank_head_dropWhile (s : List Char) :
    ∀ c ∈ (s.dropWhile isBlank).head?, isBlank c = false := by
  intro c hc
  have h := List.head?_dropWhile_not isBlank s
  rw [Option.mem_def.1 hc] at h
  exact h

theorem isBlank_last_trimEnd (s : List Char) :
    ∀ c ∈ (trimEnd s).getLast?, isBlank c = false := by
  rw [trimEnd, List.getLast?_reverse]
  exact isBlank_head_dropWhile _

/-- What is left of a text without the blanks at its end. -/
structure IsTrimmedEnd (value s : List Char) : Prop where
  exists_eq : ∃ last, s = value ++ last ∧ IsBlanks last
  isBlank_last : ∀ c ∈ value.getLast?, isBlank c = false

/-- There is only one way to take the blanks off the end. -/
theorem isTrimmedEnd_iff {value s : List Char} : IsTrimmedEnd value s ↔ trimEnd s = value := by
  constructor
  · rintro ⟨⟨last, rfl, hlast⟩, hend⟩
    have hreverse : IsBlanks last.reverse := fun c hc => hlast c (List.mem_reverse.1 hc)
    rw [trimEnd, List.reverse_append, List.dropWhile_append_of_pos hreverse,
      dropWhile_isBlank_of_head (by rwa [List.head?_reverse]), List.reverse_reverse]
  · rintro rfl
    exact ⟨exists_eq_trimEnd_append s, isBlank_last_trimEnd s⟩

/-- A text that neither starts nor ends with a blank is found between blanks. -/
theorem IsTrimmed.trim_eq {value s : List Char} (h : IsTrimmed value s) : trim s = value := by
  obtain ⟨⟨first, last, rfl, hfirst, hlast⟩, hhead, hend⟩ := h
  cases value with
  | nil =>
    have hall : ∀ c ∈ first ++ last, isBlank c = true :=
      fun c hc => (List.mem_append.1 hc).elim (hfirst c) (hlast c)
    rw [List.nil_append, trim, trimStart, List.dropWhile_eq_nil_iff.2 hall]
    rfl
  | cons c value =>
    have hstart : trimStart (first ++ (c :: value ++ last)) = c :: value ++ last := by
      rw [trimStart, List.dropWhile_append_of_pos hfirst]
      exact dropWhile_isBlank_of_head hhead
    rw [trim, hstart]
    exact isTrimmedEnd_iff.1 ⟨⟨last, rfl, hlast⟩, hend⟩

/-- A text without blanks is found between blanks. -/
theorem trim_append {first s last : List Char} (hfirst : IsBlanks first) (hlast : IsBlanks last)
    (hs : ∀ c ∈ s, isBlank c = false) : trim (first ++ (s ++ last)) = s :=
  IsTrimmed.trim_eq ⟨⟨first, last, rfl, hfirst, hlast⟩, fun c hc => hs c (List.mem_of_head? hc),
    fun c hc => hs c (List.mem_of_getLast? hc)⟩

/-- A text without blanks is trimmed already. -/
theorem trim_of_forall {s : List Char} (h : ∀ c ∈ s, isBlank c = false) : trim s = s := by
  have htrim := trim_append isBlanks_nil isBlanks_nil h
  rwa [List.nil_append, List.append_nil] at htrim

/-- **What trimming leaves** neither starts nor ends with a blank. -/
theorem isTrimmed_iff {value s : List Char} : IsTrimmed value s ↔ trim s = value := by
  refine ⟨IsTrimmed.trim_eq, ?_⟩
  rintro rfl
  refine ⟨exists_eq_append_trim s, fun c hc => ?_, fun c hc => ?_⟩
  · -- the text is trimmed at its end last, which leaves its start
    obtain ⟨t, ht⟩ : trim s <+: trimStart s := by
      rw [trim, trimEnd, ← List.reverse_suffix, List.reverse_reverse]
      exact List.dropWhile_suffix isBlank
    refine isBlank_head_dropWhile s c ?_
    rw [trimStart] at ht
    rw [← ht]
    exact List.mem_head?_append_of_mem_head? hc
  · exact isBlank_last_trimEnd (trimStart s) c hc

theorem trim_eq_nil_iff {s : List Char} : trim s = [] ↔ IsBlanks s := by
  rw [← isTrimmed_iff]
  constructor
  · rintro ⟨⟨first, last, rfl, hfirst, hlast⟩, -, -⟩
    exact fun c hc => (List.mem_append.1 hc).elim (hfirst c) (hlast c)
  · exact fun h => ⟨⟨s, [], (List.append_nil s).symm, h, isBlanks_nil⟩, by simp, by simp⟩

/-- Blanks at the start change nothing. -/
theorem trim_isBlanks_append {first : List Char} (h : IsBlanks first) (s : List Char) :
    trim (first ++ s) = trim s := by
  rw [trim, trim, trimStart, trimStart, List.dropWhile_append_of_pos h]

/-- Blanks at the end change nothing. -/
theorem trim_append_of_isBlanks (s : List Char) {last : List Char} (h : IsBlanks last) :
    trim (s ++ last) = trim s := by
  obtain ⟨⟨first, rest, hs, hfirst, hrest⟩, hhead, hend⟩ := isTrimmed_iff.2 (Eq.refl (trim s))
  refine IsTrimmed.trim_eq ⟨⟨first, rest ++ last, ?_, hfirst, ?_⟩, hhead, hend⟩
  · conv_lhs => rw [hs]
    simp only [List.append_assoc]
  · exact List.forall_mem_append.2 ⟨hrest, h⟩

end Text

/-- A character of a numeral is not blank. -/
theorem isBlank_of_isNumeralChar {c : Char} (h : Number.isNumeralChar c = true) :
    Text.isBlank c = false := by
  obtain ⟨hlow, hup⟩ := Number.toNat_bounds_of_isNumeralChar h
  simp only [Text.isBlank, Text.inRanges, Text.blankRanges, List.any_cons, List.any_nil,
    Bool.or_false, Bool.or_eq_false_iff, Bool.and_eq_false_iff, decide_eq_false_iff_not]
  omega

end BenchSweep
