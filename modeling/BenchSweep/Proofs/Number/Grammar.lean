import BenchSweep.Proofs.Number.Literal
import Mathlib.Data.List.TakeWhile

/-!
# The grammar of numerals

A numeral is an optional sign and then either digits, with an optional point among them and an
optional exponent after them, or one of three words in any case. The reader reads exactly the
numerals: it looks for a sign, takes digits as long as they come, and leaves nothing over.

## Scope

The grammar is that of the numerals of metrics and ratios, which is wider than that of the numbers
in a configuration: a plus sign, zeros in front, a point at either end and the words for infinity
and for no number are allowed. Only whether a text is read is told here. What it is read as follows
for literals from `BenchSweep.Proofs.Number.Literal`.

## Why the grammar is not the reader

The reader takes as many digits as there are and looks at what is left. In the grammar nothing is
taken: a numeral is a sign, digits, a point and an exponent that are put together, and the lists of
digits may be chosen freely. That no other way to take it apart is missed is the content of
`isNumeral_iff`.

## Main definitions

* `IsNumeral`: the grammar.

## Main results

* `isNumeral_iff`: the texts that are read as a number.
-/

namespace BenchSweep.Number

open Literal (scaleChars)

/-- The sign of a numeral, which may be left out. -/
inductive IsSign : List Char → Prop where
  | none : IsSign []
  | plus : IsSign ['+']
  | minus : IsSign ['-']

/-- The words that are numerals, in small letters. -/
def numeralWords : List (List Char) :=
  [['i', 'n', 'f'], ['i', 'n', 'f', 'i', 'n', 'i', 't', 'y'], ['n', 'a', 'n']]

/-- The part of a numeral after its sign. -/
inductive IsUnsigned : List Char → Prop where
  | whole (digits : List Char) (scale : Option Scale) (hne : digits ≠ [])
    (hdigits : ∀ c ∈ digits, isDigit c = true) : IsUnsigned (digits ++ scaleChars scale)
  /-- A digit stands before the point or after it. -/
  | point (whole fraction : List Char) (scale : Option Scale) (hne : whole ≠ [] ∨ fraction ≠ [])
    (hwhole : ∀ c ∈ whole, isDigit c = true) (hfraction : ∀ c ∈ fraction, isDigit c = true) :
    IsUnsigned (whole ++ '.' :: (fraction ++ scaleChars scale))
  | word (s : List Char) (h : s.map Char.toLower ∈ numeralWords) : IsUnsigned s

/-- The grammar of numerals. -/
inductive IsNumeral : List Char → Prop where
  | mk {sign size : List Char} (hsign : IsSign sign) (hsize : IsUnsigned size) :
    IsNumeral (sign ++ size)

/-! ### Exponents -/

/-- A marker, a sign and digits are an exponent. -/
theorem exists_scale {marker : Char} (hmarker : marker = 'e' ∨ marker = 'E') (sign : Option Bool)
    {digits : List Char} (hne : digits ≠ []) (hdigits : digits.all isDigit = true) :
    ∃ scale : Scale, marker :: (Scale.signChars sign ++ digits) = scale.chars := by
  have hmem := List.all_eq_true.1 hdigits
  rcases hmarker with rfl | rfl
  · exact ⟨⟨false, sign, digits, hne, hmem⟩, rfl⟩
  · exact ⟨⟨true, sign, digits, hne, hmem⟩, rfl⟩

/-- What is read as an exponent is one. -/
theorem exists_scaleChars_of_readExponent? {s : List Char} {e : ℤ}
    (h : readExponent? s = some e) : ∃ scale, s = scaleChars scale := by
  unfold readExponent? at h
  split at h
  · exact ⟨none, rfl⟩
  next marker rest =>
  split at h
  · next hmarker =>
    split at h
    next negative digits hsign =>
    split at h
    · next hdigits =>
      obtain ⟨sign, hrest⟩ : ∃ sign, rest = Scale.signChars sign ++ digits := by
        split at hsign <;> cases hsign
        · exact ⟨some true, rfl⟩
        · exact ⟨some false, rfl⟩
        · exact ⟨none, rfl⟩
      obtain ⟨scale, hscale⟩ := exists_scale hmarker sign hdigits.1 hdigits.2
      exact ⟨some scale, hrest ▸ hscale⟩
    · cases h
  · cases h

/-! ### Digits and words -/

/-- What is split at a point was put together so. -/
theorem eq_of_splitPoint {s whole fraction rest : List Char}
    (h : splitPoint s = (whole, fraction, rest)) :
    (∀ c ∈ whole, isDigit c = true) ∧ (∀ c ∈ fraction, isDigit c = true) ∧
      (s = whole ++ '.' :: (fraction ++ rest) ∨ fraction = [] ∧ s = whole ++ rest) := by
  have htake (t : List Char) : ∀ c ∈ t.takeWhile isDigit, isDigit c = true :=
    fun _ => List.mem_takeWhile_imp
  have happend (t : List Char) : t = t.takeWhile isDigit ++ t.dropWhile isDigit :=
    List.takeWhile_append_dropWhile.symm
  have hs := happend s
  unfold splitPoint at h
  split at h
  · next t ht =>
    cases h
    refine ⟨htake s, htake t, .inl ?_⟩
    rw [← happend t, ← ht, ← hs]
  · cases h
    exact ⟨htake s, by simp, .inr ⟨rfl, hs⟩⟩

/-- Digits are read as a decimal. -/
theorem exists_decimal_or_mem_of_isUnsigned {s : List Char} (h : IsUnsigned s) :
    (∃ d, readDecimal? s = some d) ∨ s.map Char.toLower ∈ numeralWords := by
  cases h with
  | whole _ scale hne hdigits =>
    left
    rw [readDecimal?, Literal.splitPoint_append_scaleChars hdigits]
    dsimp only
    rw [if_neg fun h => hne h.1, Literal.readExponent?_scaleChars]
    exact ⟨_, rfl⟩
  | point whole fraction scale hne hwhole hfraction =>
    left
    rw [readDecimal?, Literal.splitPoint_append_point hwhole hfraction]
    dsimp only
    rw [if_neg fun h => hne.elim (· h.1) (· h.2), Literal.readExponent?_scaleChars]
    exact ⟨_, rfl⟩
  | word _ h => exact .inr h

/-- What is read as a decimal has the digits of its coefficient on both sides of a point. -/
theorem exists_digits_of_readDecimal? {s : List Char} {d : Decimal} (h : readDecimal? s = some d) :
    ∃ whole fraction scale, (whole ≠ [] ∨ fraction ≠ []) ∧ (∀ c ∈ whole, isDigit c = true) ∧
      (∀ c ∈ fraction, isDigit c = true) ∧ d.coefficient = digitsValue 0 (whole ++ fraction) ∧
      (s = whole ++ '.' :: (fraction ++ scaleChars scale) ∨
        fraction = [] ∧ s = whole ++ scaleChars scale) := by
  unfold readDecimal? at h
  split at h
  next whole fraction rest hsplit =>
  split at h
  · cases h
  next hne =>
  obtain ⟨e, he, rfl⟩ := Option.map_eq_some_iff.1 h
  obtain ⟨scale, rfl⟩ := exists_scaleChars_of_readExponent? he
  obtain ⟨hwhole, hfraction, hs⟩ := eq_of_splitPoint hsplit
  exact ⟨whole, fraction, scale, not_and_or.1 hne, hwhole, hfraction, rfl, hs⟩

/-- What is read as a decimal is one. -/
theorem isUnsigned_of_readDecimal? {s : List Char} {d : Decimal} (h : readDecimal? s = some d) :
    IsUnsigned s := by
  obtain ⟨whole, fraction, scale, hne, hwhole, hfraction, -, rfl | ⟨rfl, rfl⟩⟩ :=
    exists_digits_of_readDecimal? h
  · exact .point whole fraction scale hne hwhole hfraction
  · exact .whole whole scale (hne.resolve_right (· rfl)) hwhole

/-- The part after the sign is read exactly if it is one. -/
theorem isUnsigned_iff {s : List Char} : IsUnsigned s ↔ ∃ u, readUnsigned? s = some u := by
  constructor
  · intro h
    cases hd : readDecimal? s with
    | some d => exact ⟨.decimal d, by rw [readUnsigned?, hd]⟩
    | none =>
      obtain ⟨d, h⟩ | h := exists_decimal_or_mem_of_isUnsigned h
      · cases hd.symm.trans h
      simp only [numeralWords, List.mem_cons, List.not_mem_nil, or_false] at h
      rcases h with h | h | h
      · exact ⟨.infinity, by rw [readUnsigned?, hd, h]; rfl⟩
      · exact ⟨.infinity, by rw [readUnsigned?, hd, h]; rfl⟩
      · exact ⟨.nan, by rw [readUnsigned?, hd, h]; rfl⟩
  · rintro ⟨u, h⟩
    unfold readUnsigned? at h
    split at h
    · next d hd => exact isUnsigned_of_readDecimal? hd
    split at h
    · next hw => exact .word s (by simp [hw, numeralWords])
    · next hw => exact .word s (by simp [hw, numeralWords])
    · next hw => exact .word s (by simp [hw, numeralWords])
    · cases h

/-! ### Signs -/

/-- A numeral goes on after its sign with a digit, with the point or with the letter of a word. -/
theorem IsUnsigned.exists_cons {s : List Char} (h : IsUnsigned s) :
    ∃ c rest, s = c :: rest ∧ (isDigit c = true ∨ c = '.' ∨ c.toLower = 'i' ∨ c.toLower = 'n') := by
  cases h with
  | whole digits scale hne hdigits =>
    obtain ⟨c, rest, rfl⟩ := List.exists_cons_of_ne_nil hne
    exact ⟨c, _, rfl, .inl (hdigits c List.mem_cons_self)⟩
  | point whole fraction scale _ hwhole =>
    cases whole with
    | nil => exact ⟨'.', _, rfl, .inr (.inl rfl)⟩
    | cons c rest => exact ⟨c, _, rfl, .inl (hwhole c List.mem_cons_self)⟩
  | word _ h =>
    cases s with
    | nil => exact absurd h (by decide)
    | cons c rest =>
      simp only [numeralWords, List.map_cons, List.mem_cons, List.cons.injEq, List.not_mem_nil,
        or_false] at h
      refine ⟨c, rest, rfl, .inr (.inr ?_)⟩
      rcases h with h | h | h
      · exact .inl h.1
      · exact .inl h.1
      · exact .inr h.1

/-- A second sign is no part of a numeral. -/
theorem not_isUnsigned_cons {sign : Char} (hsign : sign = '-' ∨ sign = '+') (rest : List Char) :
    ¬IsUnsigned (sign :: rest) := by
  intro h
  obtain ⟨c, _, hc, h⟩ := h.exists_cons
  obtain rfl := (List.cons.inj hc).1
  rcases hsign with rfl | rfl <;> revert h <;> decide

theorem IsUnsigned.read?_eq {s : List Char} (h : IsUnsigned s) :
    Numeral.read? s = (readUnsigned? s).map (⟨false, ·⟩) := by
  unfold Numeral.read?
  split
  · exact absurd h (not_isUnsigned_cons (.inl rfl) _)
  · exact absurd h (not_isUnsigned_cons (.inr rfl) _)
  · rfl

/-- The sign of what is read is taken off. -/
theorem exists_sign_of_read? {s : List Char} {n : Numeral} (h : Numeral.read? s = some n) :
    ∃ sign size, s = sign ++ size ∧ IsSign sign ∧ readUnsigned? size = some n.size := by
  unfold Numeral.read? at h
  split at h <;> obtain ⟨u, hu, rfl⟩ := Option.map_eq_some_iff.1 h
  · exact ⟨['-'], _, rfl, .minus, hu⟩
  · exact ⟨['+'], _, rfl, .plus, hu⟩
  · exact ⟨[], _, rfl, .none, hu⟩

/-- A text is a numeral exactly if its parts are found. -/
theorem isNumeral_iff_read? {s : List Char} : IsNumeral s ↔ ∃ n, Numeral.read? s = some n := by
  constructor
  · rintro ⟨hsign, hsize⟩
    obtain ⟨u, hu⟩ := isUnsigned_iff.1 hsize
    cases hsign with
    | none => exact ⟨⟨false, u⟩, by rw [List.nil_append, hsize.read?_eq, hu]; rfl⟩
    | plus => exact ⟨⟨false, u⟩, by rw [List.singleton_append, Numeral.read?, hu]; rfl⟩
    | minus => exact ⟨⟨true, u⟩, by rw [List.singleton_append, Numeral.read?, hu]; rfl⟩
  · rintro ⟨n, h⟩
    obtain ⟨sign, size, rfl, hsign, hu⟩ := exists_sign_of_read? h
    exact .mk hsign (isUnsigned_iff.2 ⟨n.size, hu⟩)

theorem IsNumeral.ne_nil {s : List Char} (h : IsNumeral s) : s ≠ [] := by
  obtain ⟨-, hsize⟩ := h
  obtain ⟨c, rest, rfl, -⟩ := hsize.exists_cons
  exact List.append_ne_nil_of_right_ne_nil _ (List.cons_ne_nil c rest)

/-- **The reader reads exactly the numerals.** -/
theorem isNumeral_iff {s : List Char} : IsNumeral s ↔ ∃ x, readBinary64 s = .ok x := by
  constructor
  · intro h
    obtain ⟨n, hn⟩ := isNumeral_iff_read?.1 h
    exact ⟨n.value, by rw [readBinary64, if_neg h.ne_nil, hn]⟩
  · rintro ⟨x, h⟩
    unfold readBinary64 at h
    split at h
    · cases h
    split at h
    · next n hn => exact isNumeral_iff_read?.2 ⟨n, hn⟩
    · cases h

end BenchSweep.Number
