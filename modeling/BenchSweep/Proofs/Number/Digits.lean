import BenchSweep.Number.Count
import BenchSweep.Proofs.Number.Rounding
import Mathlib.Data.Nat.Digits.Defs

/-!
# Runs of digits

The value of a run of digits, and the digits of a number. Both readers of counts look at a run from
the left; the run that is written for a number has no leading zero and reads back to the number.

## Scope

Runs of digits are looked at without a bound here, and zeros in front are digits like any others.
Which runs are read as a count of a certain size is the subject of `BenchSweep.Proofs.Number.Count`;
that a count is written without zeros in front, and read back, is needed wherever counts are
printed.

## Main results

* `digitsValue_append`: the value of a run that is put together from two.
* `digitsValue_decimal`: the digits of a number have its value.
* `readCount_decimal`: the text of a count is read as the count.
-/

namespace BenchSweep.Number

/-! ### Digits -/

theorem digit?_eq (c : Char) :
    digit? c = if c.isDigit then some (c.toNat - '0'.toNat) else none := by
  unfold digit?
  congr 1
  simp only [Char.isDigit, Bool.and_eq_true, decide_eq_true_eq, eq_iff_iff]
  exact Iff.rfl

theorem isDigit_eq (c : Char) : isDigit c = c.isDigit := by
  rw [isDigit, digit?_eq]
  split <;> simp_all

theorem digit?_of_isDigit {c : Char} (h : isDigit c = true) :
    digit? c = some (c.toNat - '0'.toNat) := by
  rw [isDigit_eq] at h
  rw [digit?_eq, if_pos h]

theorem digit?_lt {c : Char} {d : ℕ} (h : digit? c = some d) : d < 10 := by
  unfold digit? at h
  split at h
  · next hc =>
    cases h
    have : c.toNat ≤ '9'.toNat := hc.2
    have : '9'.toNat = '0'.toNat + 9 := rfl
    omega
  · cases h

/-- A character that is no digit ends a run. -/
theorem isDigit_ne {c d : Char} (hc : isDigit c = true) (hd : isDigit d = false) : c ≠ d := by
  rintro rfl
  rw [hc] at hd
  cases hd

/-- A text that is read on after a run of digits. -/
def NoDigitFirst (s : List Char) : Prop :=
  ∀ c ∈ s.head?, isDigit c = false

theorem takeWhile_isDigit_append {s rest : List Char} (hs : ∀ c ∈ s, isDigit c = true)
    (hrest : NoDigitFirst rest) : (s ++ rest).takeWhile isDigit = s := by
  rw [List.takeWhile_append_of_pos hs]
  cases rest with
  | nil => exact List.append_nil s
  | cons c rest => simp [hrest c rfl]

theorem dropWhile_isDigit_append {s rest : List Char} (hs : ∀ c ∈ s, isDigit c = true)
    (hrest : NoDigitFirst rest) : (s ++ rest).dropWhile isDigit = rest := by
  rw [List.dropWhile_append_of_pos hs]
  cases rest with
  | nil => rfl
  | cons c rest => simp [hrest c rfl]

/-! ### Values -/

theorem digitsValue_nil (acc : ℕ) : digitsValue acc [] = acc :=
  rfl

theorem digitsValue_cons (acc : ℕ) (c : Char) (s : List Char) :
    digitsValue acc (c :: s) = digitsValue (acc * 10 + (digit? c).getD 0) s :=
  rfl

theorem digitsValue_append (acc : ℕ) (s t : List Char) :
    digitsValue acc (s ++ t) = digitsValue (digitsValue acc s) t :=
  List.foldl_append ..

/-- The digits before a run count by their place. -/
theorem digitsValue_eq_add (acc : ℕ) (s : List Char) :
    digitsValue acc s = acc * tenTo s.length + digitsValue 0 s := by
  induction s generalizing acc with
  | nil => rw [digitsValue_nil, digitsValue_nil, List.length_nil, tenTo_zero, Nat.mul_one,
      Nat.add_zero]
  | cons c s ih =>
    rw [digitsValue_cons, digitsValue_cons, ih, ih (0 * 10 + _), List.length_cons, tenTo_succ]
    ring

theorem le_digitsValue (acc : ℕ) (s : List Char) : acc ≤ digitsValue acc s := by
  rw [digitsValue_eq_add]
  exact (Nat.le_mul_of_pos_right acc (tenTo_pos _)).trans (Nat.le_add_right _ _)

theorem digitsValue_lt {s : List Char} (hs : ∀ c ∈ s, isDigit c = true) :
    digitsValue 0 s < tenTo s.length := by
  induction s with
  | nil => exact Nat.one_pos
  | cons c s ih =>
    obtain ⟨hc, hs⟩ := List.forall_mem_cons.1 hs
    have hd := digit?_lt (digit?_of_isDigit hc)
    rw [digitsValue_cons, digitsValue_eq_add, digit?_of_isDigit hc, Option.getD_some, Nat.zero_mul,
      Nat.zero_add, List.length_cons, tenTo_succ]
    have := Nat.mul_le_mul_right (tenTo s.length) (Nat.le_of_lt_succ hd)
    have := ih hs
    omega

theorem digitsValue_eq_ofDigitChars {acc : ℕ} {s : List Char} (hs : ∀ c ∈ s, isDigit c = true) :
    digitsValue acc s = Nat.ofDigitChars 10 s acc := by
  induction s generalizing acc with
  | nil => rfl
  | cons c s ih =>
    obtain ⟨hc, hs⟩ := List.forall_mem_cons.1 hs
    rw [digitsValue_cons, Nat.ofDigitChars_cons, ih hs, digit?_of_isDigit hc, Option.getD_some,
      Nat.mul_comm]

theorem digitsValue_replicate_zero (acc n : ℕ) :
    digitsValue acc (List.replicate n '0') = acc * tenTo n := by
  induction n generalizing acc with
  | zero => exact (Nat.mul_one acc).symm
  | succ n ih =>
    rw [List.replicate_succ, digitsValue_cons, ih, tenTo_succ]
    simp only [digit?, Char.reduceLE, and_self, if_true, Nat.sub_self, Option.getD_some]
    ring

/-! ### The digits of a number -/

theorem isDigit_of_mem_decimal {n : ℕ} {c : Char} (h : c ∈ decimal n) : isDigit c = true := by
  rw [isDigit_eq]
  exact Nat.isDigit_of_mem_toDigits (by decide) (by decide) h

theorem decimal_ne_nil (n : ℕ) : decimal n ≠ [] :=
  Nat.toDigits_ne_nil

theorem length_decimal_pos (n : ℕ) : 0 < (decimal n).length :=
  Nat.length_toDigits_pos

theorem length_decimal_le_iff {n k : ℕ} (hk : 0 < k) : (decimal n).length ≤ k ↔ n < tenTo k :=
  Nat.length_toDigits_le_iff (by decide) hk

theorem lt_tenTo_length_decimal (n : ℕ) : n < tenTo (decimal n).length :=
  (length_decimal_le_iff (length_decimal_pos n)).1 le_rfl

/-- The digits of a number have its value. -/
theorem digitsValue_decimal (n : ℕ) : digitsValue 0 (decimal n) = n := by
  rw [digitsValue_eq_ofDigitChars fun _ => isDigit_of_mem_decimal]
  exact Nat.ofDigitChars_ten_toDigits

/-- Only zero starts with a zero. -/
theorem head?_decimal_ne {n : ℕ} (hn : 0 < n) : (decimal n).head? ≠ some '0' := by
  intro h
  obtain ⟨t, ht⟩ := List.head?_eq_some_iff.1 h
  have hvalue : n < tenTo t.length := by
    conv_lhs => rw [← digitsValue_decimal n, ht]
    exact digitsValue_lt fun c hc =>
      isDigit_of_mem_decimal (n := n) (ht ▸ List.mem_cons_of_mem _ hc)
  rcases Nat.eq_zero_or_pos t.length with hnil | hpos
  · rw [hnil, tenTo_zero] at hvalue
    omega
  · have hle := (length_decimal_le_iff hpos).2 hvalue
    rw [ht, List.length_cons] at hle
    omega

/-! ### Counts -/

/-- Digits of a value below the bound are taken in, and what follows is read on. -/
theorem readDigitsBelow_append {bound acc : ℕ} {s : List Char} (hs : ∀ c ∈ s, isDigit c = true)
    (hlt : digitsValue acc s < bound) (rest : List Char) :
    readDigitsBelow bound acc (s ++ rest) = readDigitsBelow bound (digitsValue acc s) rest := by
  induction s generalizing acc with
  | nil => rfl
  | cons c s ih =>
    obtain ⟨hc, hs⟩ := List.forall_mem_cons.1 hs
    rw [digitsValue_cons, digit?_of_isDigit hc, Option.getD_some] at hlt ⊢
    rw [List.cons_append, readDigitsBelow, digit?_of_isDigit hc]
    dsimp only
    rw [if_pos ((le_digitsValue _ s).trans_lt hlt), ih hs hlt]

theorem readDigitsBelow_eq {bound acc : ℕ} {s : List Char} (hs : ∀ c ∈ s, isDigit c = true)
    (hlt : digitsValue acc s < bound) : readDigitsBelow bound acc s = .ok (digitsValue acc s) := by
  have hread := readDigitsBelow_append hs hlt []
  rwa [List.append_nil] at hread

theorem readBelow_decimal {bound n : ℕ} (hn : n < bound) :
    readBelow bound (decimal n) = .ok n := by
  have hread : readDigitsBelow bound 0 (decimal n) = .ok n := by
    rw [readDigitsBelow_eq (fun _ => isDigit_of_mem_decimal) (by rwa [digitsValue_decimal]),
      digitsValue_decimal]
  cases h : decimal n with
  | nil => exact absurd h (decimal_ne_nil n)
  | cons c t =>
    have hplus : c ≠ '+' :=
      isDigit_ne (isDigit_of_mem_decimal (n := n) (h ▸ List.mem_cons_self)) (by decide)
    rw [h] at hread
    unfold readBelow
    split <;> simp_all

/-- The text of a count is read as the count. -/
theorem readCount_decimal (n : UInt64) : readCount (decimal n.toNat) = .ok n := by
  rw [readCount, readBelow_decimal (show n.toNat < twoTo 64 from n.toNat_lt)]
  exact congrArg Except.ok n.ofNat_toNat

end BenchSweep.Number
