import BenchSweep.Proofs.Except
import BenchSweep.Proofs.Number.Digits

/-!
# Counts

The numerals that are read as a count below a bound, and what is wrong with the others. The reader
goes from the left and stops at the first character that is no digit or that takes the value past
the bound, so what is reported depends on which of the two comes first.

## Scope

The bound is that of the type into which a numeral is read, and nothing is said of how the types
wrap: a numeral at the bound or past it is refused, whatever its length, and zeros in front do not
count. A minus sign is refused as a character that is no digit, in front of a zero as well.

## Main definitions

* `IsCount`: the numerals of a number below a bound.
* `IsNoCount`: the other texts, each with what is wrong with it.

## Main results

* `readBelow_eq_ok_iff`, `readBelow_eq_error_iff`: what is read below a bound.
* `readCount_eq_ok_iff`, `readPort_eq_ok_iff`: what is read as a count of some bits.
-/

namespace BenchSweep.Number

/-- What is left of a numeral without the plus sign in front of it, if there is one. -/
inductive IsAfterPlus : List Char → List Char → Prop
  | plus (digits : List Char) : IsAfterPlus ('+' :: digits) digits
  | bare {digits : List Char} (h : digits.head? ≠ some '+') : IsAfterPlus digits digits

/-- A numeral of a number below a bound: digits, after an optional plus sign. -/
structure IsCount (bound : ℕ) (s : List Char) (n : ℕ) : Prop where
  exists_digits : ∃ digits, IsAfterPlus s digits ∧ digits ≠ [] ∧
    (∀ c ∈ digits, isDigit c = true) ∧ digitsValue 0 digits = n
  lt_bound : n < bound

/-- A text that is no numeral of a number below a bound, with what is wrong with it. In front of the
character that is reported there are digits, and their value is below the bound. -/
inductive IsNoCount (bound : ℕ) : List Char → CountError → Prop
  | empty : IsNoCount bound [] .empty
  | plus : IsNoCount bound ['+'] .invalidDigit
  | invalidDigit {s before after : List Char} {c : Char} (h : IsAfterPlus s (before ++ c :: after))
      (hbefore : ∀ d ∈ before, isDigit d = true) (hlt : digitsValue 0 before < bound)
      (hc : isDigit c = false) : IsNoCount bound s .invalidDigit
  | tooLarge {s before after : List Char} {c : Char} (h : IsAfterPlus s (before ++ c :: after))
      (hbefore : ∀ d ∈ before, isDigit d = true) (hlt : digitsValue 0 before < bound)
      (hc : isDigit c = true) (hle : bound ≤ digitsValue 0 (before ++ [c])) :
      IsNoCount bound s .tooLarge

variable {bound acc n : ℕ} {s digits : List Char} {e : CountError}

/-! ### Runs of digits -/

theorem digitsValue_singleton {c : Char} {d : ℕ} (h : digit? c = some d) (acc : ℕ) :
    digitsValue acc [c] = acc * 10 + d := by
  rw [digitsValue_cons, digitsValue_nil, h, Option.getD_some]

/-- What is wrong with one character. -/
theorem readDigitsBelow_cons_eq_error {c : Char}
    (h : isDigit c = false ∧ e = .invalidDigit ∨
      isDigit c = true ∧ bound ≤ digitsValue acc [c] ∧ e = .tooLarge) (rest : List Char) :
    readDigitsBelow bound acc (c :: rest) = .error e := by
  rw [readDigitsBelow]
  rcases h with ⟨hc, rfl⟩ | ⟨hc, hle, rfl⟩
  · rw [isDigit, Option.isSome_eq_false_iff, Option.isNone_iff_eq_none] at hc
    rw [hc]
  · obtain ⟨d, hd⟩ := Option.isSome_iff_exists.1 hc
    rw [digitsValue_singleton hd] at hle
    rw [hd]
    exact if_neg (Nat.not_lt.2 hle)

/-- Where a run fails, there are digits in front of the character that is reported. -/
theorem exists_of_readDigitsBelow_eq_error (hacc : acc < bound)
    (h : readDigitsBelow bound acc s = .error e) :
    ∃ before c after, s = before ++ c :: after ∧ (∀ d ∈ before, isDigit d = true) ∧
      digitsValue acc before < bound ∧ (isDigit c = false ∧ e = .invalidDigit ∨
        isDigit c = true ∧ bound ≤ digitsValue acc (before ++ [c]) ∧ e = .tooLarge) := by
  induction s generalizing acc with
  | nil => cases h
  | cons c s ih =>
    rw [readDigitsBelow] at h
    split at h
    next hc =>
      cases h
      exact ⟨[], c, s, rfl, by simp, hacc, .inl ⟨by rw [isDigit, hc, Option.isSome_none], rfl⟩⟩
    next d hd =>
      have hdigit : isDigit c = true := by
        rw [isDigit, hd, Option.isSome_some]
      split at h
      next hlt =>
        obtain ⟨before, c', after, rfl, hbefore, hlt', hreport⟩ := ih hlt h
        rw [← digitsValue_singleton hd, ← digitsValue_append] at hlt'
        rw [← digitsValue_singleton hd, ← digitsValue_append] at hreport
        exact ⟨c :: before, c', after, rfl, List.forall_mem_cons.2 ⟨hdigit, hbefore⟩, hlt', hreport⟩
      next hge =>
        cases h
        rw [← digitsValue_singleton hd] at hge
        exact ⟨[], c, s, rfl, by simp, hacc, .inr ⟨hdigit, Nat.not_lt.1 hge, rfl⟩⟩

theorem readDigitsBelow_eq_ok (hacc : acc < bound) (h : readDigitsBelow bound acc s = .ok n) :
    (∀ c ∈ s, isDigit c = true) ∧ digitsValue acc s = n ∧ n < bound := by
  induction s generalizing acc with
  | nil =>
    cases h
    exact ⟨by simp, rfl, hacc⟩
  | cons c s ih =>
    rw [readDigitsBelow] at h
    split at h
    · cases h
    next d hd =>
      split at h
      next hlt =>
        obtain ⟨hdigits, hvalue, hn⟩ := ih hlt h
        refine ⟨List.forall_mem_cons.2 ⟨by rw [isDigit, hd, Option.isSome_some], hdigits⟩, ?_, hn⟩
        rw [digitsValue_cons, hd, Option.getD_some, hvalue]
      · cases h

/-! ### Numerals -/

theorem readBelow_of_isAfterPlus (h : IsAfterPlus s digits) (hne : digits ≠ []) :
    readBelow bound s = readDigitsBelow bound 0 digits := by
  cases h with
  | plus => rw [readBelow]; exact hne
  | bare h =>
    rw [readBelow]
    · exact hne
    · rintro rfl
      exact h rfl
    · rintro rest rfl
      exact h rfl

/-- A text without digits is empty or a plus sign, and else there is one way to leave out the plus
sign. -/
theorem eq_or_exists_isAfterPlus (s : List Char) :
    s = [] ∨ s = ['+'] ∨ ∃ digits, IsAfterPlus s digits ∧ digits ≠ [] := by
  cases s with
  | nil => exact .inl rfl
  | cons c s =>
    by_cases hc : c = '+'
    · subst hc
      cases s with
      | nil => exact .inr (.inl rfl)
      | cons d s => exact .inr (.inr ⟨d :: s, .plus _, List.cons_ne_nil _ _⟩)
    · exact .inr (.inr ⟨c :: s, .bare (by simpa using hc), List.cons_ne_nil _ _⟩)

/-- **What is read below a bound** is a numeral of a number below it. -/
theorem readBelow_eq_ok_iff (hbound : 0 < bound) :
    readBelow bound s = .ok n ↔ IsCount bound s n := by
  constructor
  · intro h
    rcases eq_or_exists_isAfterPlus s with rfl | rfl | ⟨digits, hafter, hne⟩
    · cases h
    · cases h
    · rw [readBelow_of_isAfterPlus hafter hne] at h
      obtain ⟨hdigits, hvalue, hn⟩ := readDigitsBelow_eq_ok hbound h
      exact ⟨⟨digits, hafter, hne, hdigits, hvalue⟩, hn⟩
  · rintro ⟨⟨digits, hafter, hne, hdigits, rfl⟩, hn⟩
    rw [readBelow_of_isAfterPlus hafter hne, readDigitsBelow_eq hdigits hn]

/-- **What is reported of a text** that is no numeral of a number below a bound. -/
theorem readBelow_eq_error_iff (hbound : 0 < bound) :
    readBelow bound s = .error e ↔ IsNoCount bound s e := by
  constructor
  · intro h
    rcases eq_or_exists_isAfterPlus s with rfl | rfl | ⟨digits, hafter, hne⟩
    · cases h
      exact .empty
    · cases h
      exact .plus
    · rw [readBelow_of_isAfterPlus hafter hne] at h
      obtain ⟨before, c, after, rfl, hbefore, hlt, ⟨hc, rfl⟩ | ⟨hc, hle, rfl⟩⟩ :=
        exists_of_readDigitsBelow_eq_error hbound h
      · exact .invalidDigit hafter hbefore hlt hc
      · exact .tooLarge hafter hbefore hlt hc hle
  · intro h
    cases h with
    | empty => rfl
    | plus => rfl
    | invalidDigit hafter hbefore hlt hc =>
      rw [readBelow_of_isAfterPlus hafter (by simp), readDigitsBelow_append hbefore hlt]
      exact readDigitsBelow_cons_eq_error (.inl ⟨hc, rfl⟩) _
    | tooLarge hafter hbefore hlt hc hle =>
      rw [digitsValue_append] at hle
      rw [readBelow_of_isAfterPlus hafter (by simp), readDigitsBelow_append hbefore hlt]
      exact readDigitsBelow_cons_eq_error (.inr ⟨hc, hle, rfl⟩) _

/-! ### Counts of some bits -/

section

variable {α : Type} {ofNat : ℕ → α} {toNat : α → ℕ}

/-- Numbers below a bound that are put into a type of this size. -/
theorem map_readBelow_eq_ok_iff (hbound : 0 < bound) (hto : ∀ n < bound, toNat (ofNat n) = n)
    (hof : ∀ x, ofNat (toNat x) = x) {x : α} :
    (readBelow bound s).map ofNat = .ok x ↔ IsCount bound s (toNat x) := by
  rw [← readBelow_eq_ok_iff hbound]
  constructor
  · intro h
    obtain ⟨n, hn, rfl⟩ := exists_of_map_eq_ok h
    rw [hn, hto n ((readBelow_eq_ok_iff hbound).1 hn).lt_bound]
  · intro h
    rw [h]
    exact congrArg Except.ok (hof x)

theorem map_readBelow_eq_error_iff (hbound : 0 < bound) :
    (readBelow bound s).map ofNat = .error e ↔ IsNoCount bound s e := by
  rw [← readBelow_eq_error_iff hbound]
  cases readBelow bound s <;> simp [Except.map]

end

/-- **What is read as a count** of sixty-four bits. -/
theorem readCount_eq_ok_iff {x : UInt64} :
    readCount s = .ok x ↔ IsCount UInt64.size s x.toNat :=
  map_readBelow_eq_ok_iff (by decide) (fun _ => UInt64.toNat_ofNat_of_lt') fun x => x.ofNat_toNat

theorem readCount_eq_error_iff : readCount s = .error e ↔ IsNoCount UInt64.size s e :=
  map_readBelow_eq_error_iff (by decide)

/-- **What is read as a port**, of sixteen bits. -/
theorem readPort_eq_ok_iff {x : UInt16} : readPort s = .ok x ↔ IsCount UInt16.size s x.toNat :=
  map_readBelow_eq_ok_iff (by decide) (fun _ => UInt16.toNat_ofNat_of_lt') fun x => x.ofNat_toNat

theorem readPort_eq_error_iff : readPort s = .error e ↔ IsNoCount UInt16.size s e :=
  map_readBelow_eq_error_iff (by decide)

end BenchSweep.Number
