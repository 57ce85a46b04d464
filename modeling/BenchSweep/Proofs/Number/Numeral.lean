import BenchSweep.Proofs.Number.Grammar
import Mathlib.Data.Bool.AllAny

/-!
# The characters of a numeral

A numeral is made of digits, signs, points and letters, so it can stand in a record, in a list or on
a line without being mistaken for more than one field.

## Why characters suffice

Where a numeral stands in a table or a list, it only matters that it has no comma, no quote, no
blank and no line end in it. This can be read off its characters. So the round trips of tables and
lists need no grammar of numerals, and would survive a wider one as long as it kept to these
characters.

## Main definitions

* `isNumeralChar`: a character that may stand in a numeral.

## Main results

* `isNumeralChar_of_mem`: a text that is read as a number has no other characters.
-/

namespace BenchSweep.Number

/-- The letters of the words that are numerals. -/
def wordLetters : List Char :=
  ['i', 'n', 'f', 't', 'y', 'a']

/-- A character that may stand in a numeral. -/
def isNumeralChar (c : Char) : Bool :=
  isDigit c || ['+', '-', '.', 'e', 'E'].contains c || wordLetters.contains c.toLower

theorem isNumeralChar_of_isDigit {c : Char} (h : isDigit c = true) : isNumeralChar c = true := by
  rw [isNumeralChar, h]
  rfl

theorem isNumeralChar_of_mem_word {s word : List Char} (h : s.map Char.toLower = word)
    (hword : word.all wordLetters.contains = true) {c : Char} (hc : c ∈ s) :
    isNumeralChar c = true := by
  have hmem : c.toLower ∈ word := h ▸ List.mem_map_of_mem hc
  rw [isNumeralChar, List.all_eq_true.1 hword _ hmem, Bool.or_true]

theorem isNumeralChar_of_mem_scaleChars {scale : Option Scale} {c : Char}
    (hc : c ∈ Literal.scaleChars scale) : isNumeralChar c = true := by
  cases scale with
  | none => cases hc
  | some s =>
    rcases List.mem_cons.1 hc with rfl | hc
    · cases s.capital <;> decide
    rcases List.mem_append.1 hc with hc | hc
    · rcases hs : s.sign with _ | _ | _ <;> rw [hs] at hc
      · cases hc
      · rw [List.mem_singleton.1 hc]
        decide
      · rw [List.mem_singleton.1 hc]
        decide
    · exact isNumeralChar_of_isDigit (s.isDigit_of_mem c hc)

theorem IsSign.isNumeralChar_of_mem {s : List Char} (h : IsSign s) {c : Char} (hc : c ∈ s) :
    isNumeralChar c = true := by
  cases h with
  | none => cases hc
  | plus => exact List.mem_singleton.1 hc ▸ rfl
  | minus => exact List.mem_singleton.1 hc ▸ rfl

theorem IsUnsigned.isNumeralChar_of_mem {s : List Char} (h : IsUnsigned s) {c : Char}
    (hc : c ∈ s) : isNumeralChar c = true := by
  cases h with
  | whole _ _ _ hdigits =>
    rcases List.mem_append.1 hc with hc | hc
    · exact isNumeralChar_of_isDigit (hdigits c hc)
    · exact isNumeralChar_of_mem_scaleChars hc
  | point _ _ _ _ hwhole hfraction =>
    rcases List.mem_append.1 hc with hc | hc
    · exact isNumeralChar_of_isDigit (hwhole c hc)
    rcases List.mem_cons.1 hc with rfl | hc
    · decide
    rcases List.mem_append.1 hc with hc | hc
    · exact isNumeralChar_of_isDigit (hfraction c hc)
    · exact isNumeralChar_of_mem_scaleChars hc
  | word _ h =>
    have hletters : ∀ word ∈ numeralWords, word.all wordLetters.contains = true := by decide
    exact isNumeralChar_of_mem_word rfl (hletters _ h) hc

/-- A numeral has only characters of numerals. -/
theorem IsNumeral.isNumeralChar_of_mem {s : List Char} (h : IsNumeral s) {c : Char} (hc : c ∈ s) :
    isNumeralChar c = true := by
  obtain ⟨hsign, hsize⟩ := h
  rcases List.mem_append.1 hc with hc | hc
  · exact hsign.isNumeralChar_of_mem hc
  · exact hsize.isNumeralChar_of_mem hc

theorem toLower_eq_or (c : Char) : c.toLower = c ∨ 65 ≤ c.toNat ∧ c.toNat ≤ 90 := by
  unfold Char.toLower
  split
  · next h => exact .inr ⟨h.1, h.2⟩
  · exact .inl rfl

/-- The characters of numerals lie between the plus sign and the last letter. -/
theorem toNat_bounds_of_isNumeralChar {c : Char} (h : isNumeralChar c = true) :
    43 ≤ c.toNat ∧ c.toNat ≤ 122 := by
  rw [isNumeralChar, Bool.or_eq_true, Bool.or_eq_true, isDigit_eq] at h
  rcases h with (h | h) | h
  · rw [Char.isDigit, Bool.and_eq_true, decide_eq_true_eq, decide_eq_true_eq] at h
    have hlow : 48 ≤ c.toNat := h.1
    have hup : c.toNat ≤ 57 := h.2
    omega
  · rw [List.contains_iff_mem] at h
    simp only [List.mem_cons, List.not_mem_nil, or_false] at h
    rcases h with rfl | rfl | rfl | rfl | rfl <;> decide
  · rw [List.contains_iff_mem] at h
    have hletters : ∀ d ∈ wordLetters, 43 ≤ d.toNat ∧ d.toNat ≤ 122 :=
      List.all_iff_forall_prop.1 rfl
    rcases toLower_eq_or c with heq | hupper
    · exact hletters c (heq ▸ h)
    · omega

/-- **A text that is read as a number has only characters of numerals.** -/
theorem isNumeralChar_of_mem {s : List Char} {x : Binary64} (h : readBinary64 s = .ok x) {c : Char}
    (hc : c ∈ s) : isNumeralChar c = true :=
  (isNumeral_iff.2 ⟨x, h⟩).isNumeralChar_of_mem hc

end BenchSweep.Number
