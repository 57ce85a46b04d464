import BenchSweep.Proofs.Json.Skip

/-!
# Strings and numbers are read

A string that is spelled in a text is read as the string, whatever its spelling. A literal is read
as a whole number if it is written as one that fits, and else as the number that its leading digits
denote: digits are kept from the left as long as they fit into sixty-four bits. They are kept once
more from the point on, so a digit after the point may be kept although one in front of it was not.

## How digits are counted

The reader counts the digits that it drops and those after the point in thirty-two bits, and a count
that is too large starts over at the other end. `wrapCount` is what a count shows. Two counts that
are subtracted show the count of the difference (`wrapCount_sub`), so it is enough to wrap once in
the end, and `float?` does so. A fraction whose digits are counted to zero is taken to be missing,
and then the text is refused; `IsMissed` names these. None of this happens to texts of fewer than
`2 ^ 30` characters.

## Scope

`float?` gives the number as the reader makes it, in two steps, the digits that are kept and then
their scaling. How far it is from the value of the literal is the subject of
`BenchSweep.Proofs.Json.Ratio`. Literals whose number is infinite are refused and have no result
here.

## Main definitions

* `kept`: the digits of a literal that are kept, and their power of ten.
* `float?`, `scalar?`: what a literal is read as.

## Main results

* `readString_chars`: a spelled string is read.
* `readNumber_literal`: a literal is read.
-/

namespace BenchSweep.Json

open Number (Binary64 Literal NoDigitFirst Scale digitsValue isDigit)

/-! ### Strings -/

theorem readHex_cons {a b c d : Char} {n : ℕ} (h : hexValue? a b c d = some n) (rest : List Char) :
    readHex (a :: b :: c :: d :: rest) = .ok (n, rest) := by
  rw [readHex, h]

theorem readStringFrom_escape {s rest : List Char} {c : Char} (h : readEscape s = .ok (c, rest))
    (fuel : ℕ) (done : List Char) :
    readStringFrom (fuel + 1) done ('\\' :: s) = readStringFrom fuel (c :: done) rest := by
  rw [readStringFrom, if_neg (by decide), if_pos rfl, h]

/-- A spelled string is read, after characters that are read already. -/
theorem readStringFrom_chars {s t : List Char} (h : IsChars s t) {fuel : ℕ}
    (hfuel : s.length < fuel) (done rest : List Char) :
    readStringFrom fuel done (s ++ '"' :: rest) =
      .ok (String.ofList (done.reverse ++ t), rest) := by
  -- the character that was read stands at the front of those in reverse
  have happend (done : List Char) (c : Char) (t : List Char) :
      (c :: done).reverse ++ t = done.reverse ++ c :: t := by
    rw [List.reverse_cons, List.append_assoc, List.singleton_append]
  induction h generalizing fuel done with
  | nil =>
    obtain ⟨fuel, rfl⟩ := Nat.exists_eq_add_one_of_ne_zero (Nat.ne_zero_of_lt hfuel)
    rw [List.nil_append, readStringFrom, if_pos rfl, List.append_nil]
  | @plain c s t hc _ ih =>
    obtain ⟨fuel, rfl⟩ := Nat.exists_eq_add_one_of_ne_zero (Nat.ne_zero_of_lt hfuel)
    obtain ⟨hquote, hslash, hcontrol⟩ := hc
    simp only [List.cons_append, List.length_cons] at hfuel ⊢
    rw [readStringFrom, if_neg hquote, if_neg hslash, hcontrol, if_neg Bool.false_ne_true,
      ih (by omega), happend]
  | @short e c s t he _ ih =>
    obtain ⟨fuel, rfl⟩ := Nat.exists_eq_add_one_of_ne_zero (Nat.ne_zero_of_lt hfuel)
    have hescape : readEscape (e :: (s ++ '"' :: rest)) = .ok (c, s ++ '"' :: rest) := by
      rw [readEscape, he]
      rintro rfl
      cases he
    simp only [List.cons_append, List.length_cons] at hfuel ⊢
    rw [readStringFrom_escape hescape, ih (by omega), happend]
  | @unicode a b c d n s t hn hleading htrailing _ ih =>
    obtain ⟨fuel, rfl⟩ := Nat.exists_eq_add_one_of_ne_zero (Nat.ne_zero_of_lt hfuel)
    have hescape : readEscape ('u' :: a :: b :: c :: d :: (s ++ '"' :: rest)) =
        .ok (Char.ofNat n, s ++ '"' :: rest) := by
      rw [readEscape, readUnicode, readHex_cons hn]
      simp [bind, Except.bind, hleading, htrailing]
    simp only [List.cons_append, List.length_cons] at hfuel ⊢
    rw [readStringFrom_escape hescape, ih (by omega), happend]
  | @pair a b c d a' b' c' d' m n s t hm hleading hn htrailing _ ih =>
    obtain ⟨fuel, rfl⟩ := Nat.exists_eq_add_one_of_ne_zero (Nat.ne_zero_of_lt hfuel)
    have hnot : isTrailing m = false := by
      simp only [isLeading, isTrailing, Bool.and_eq_true, decide_eq_true_eq, Bool.and_eq_false_iff,
        decide_eq_false_iff_not] at hleading ⊢
      omega
    have hescape : readEscape ('u' :: a :: b :: c :: d :: '\\' :: 'u' :: a' :: b' :: c' :: d' ::
        (s ++ '"' :: rest)) = .ok (Char.ofNat (pairValue m n), s ++ '"' :: rest) := by
      rw [readEscape, readUnicode, readHex_cons hm]
      simp [bind, Except.bind, hleading, htrailing, hnot, expectInPair, readHex_cons hn]
    simp only [List.cons_append, List.length_cons] at hfuel ⊢
    rw [readStringFrom_escape hescape, ih (by omega), happend]

/-- **A spelled string is read.** -/
theorem readString_chars {s t : List Char} (h : IsChars s t) (rest : List Char) :
    readString (s ++ '"' :: rest) = .ok (String.ofList t, rest) := by
  rw [readString, readStringFrom_chars h (by simp)]
  rfl

/-! ### Digits -/

/-- Digits are read up to the first that is not kept. -/
theorem readDigits_append {s rest : List Char} (hs : ∀ c ∈ s, isDigit c = true)
    (hrest : NoDigitFirst rest) (bound acc : ℕ) : readDigits bound acc (s ++ rest) =
      ((readDigits bound acc s).1, (readDigits bound acc s).2 ++ rest) := by
  induction s generalizing acc with
  | nil =>
    cases rest with
    | nil => rfl
    | cons c rest =>
      have hnone : Number.digit? c = none := by
        have h := hrest c rfl
        rwa [isDigit, Option.isSome_eq_false_iff, Option.isNone_iff_eq_none] at h
      simp only [List.nil_append, readDigits, hnone]
  | cons c s ih =>
    obtain ⟨hc, hs⟩ := List.forall_mem_cons.1 hs
    rw [List.cons_append, readDigits, readDigits, Number.digit?_of_isDigit hc]
    dsimp only
    split
    · exact ih hs _
    · rfl

/-- What is kept is the value of a beginning. -/
theorem exists_readDigits (bound acc : ℕ) (s : List Char) :
    ∃ front, s = front ++ (readDigits bound acc s).2 ∧
      (readDigits bound acc s).1 = digitsValue acc front := by
  induction s generalizing acc with
  | nil => exact ⟨[], rfl, rfl⟩
  | cons c s ih =>
    rw [readDigits]
    split
    · next d hd =>
      split
      · obtain ⟨front, hs, hvalue⟩ := ih (acc * 10 + d)
        refine ⟨c :: front, congrArg (c :: ·) hs, ?_⟩
        rw [hvalue, Number.digitsValue_cons, hd, Option.getD_some]
      · exact ⟨[], rfl, rfl⟩
    · exact ⟨[], rfl, rfl⟩

theorem isDigit_of_mem_readDigits (bound acc : ℕ) {s : List Char}
    (hs : ∀ c ∈ s, isDigit c = true) : ∀ c ∈ (readDigits bound acc s).2, isDigit c = true := by
  obtain ⟨front, hfront, -⟩ := exists_readDigits bound acc s
  intro c hc
  exact hs c (hfront ▸ List.mem_append_right _ hc)

/-- All digits are kept if and only if the number fits. -/
theorem readDigits_of_lt {bound acc : ℕ} {s : List Char} (hs : ∀ c ∈ s, isDigit c = true)
    (h : digitsValue acc s < bound) : readDigits bound acc s = (digitsValue acc s, []) := by
  induction s generalizing acc with
  | nil => rfl
  | cons c s ih =>
    obtain ⟨hc, hs⟩ := List.forall_mem_cons.1 hs
    rw [Number.digitsValue_cons, Number.digit?_of_isDigit hc, Option.getD_some] at h ⊢
    rw [readDigits, Number.digit?_of_isDigit hc]
    dsimp only
    rw [if_pos ((Number.le_digitsValue _ s).trans_lt h), ih hs h]

theorem readDigits_lt {bound acc : ℕ} (hacc : acc < bound) (s : List Char) :
    (readDigits bound acc s).1 < bound := by
  induction s generalizing acc with
  | nil => exact hacc
  | cons c s ih =>
    rw [readDigits]
    split
    · split
      · next hlt => exact ih hlt
      · exact hacc
    · exact hacc

/-- Where the number does not fit, a digit is left. -/
theorem readDigits_ne_nil {bound acc : ℕ} {s : List Char} (hacc : acc < bound)
    (h : bound ≤ digitsValue acc s) : (readDigits bound acc s).2 ≠ [] := by
  intro hnil
  obtain ⟨front, hfront, hvalue⟩ := exists_readDigits bound acc s
  rw [hnil, List.append_nil] at hfront
  rw [← hfront] at hvalue
  have := readDigits_lt hacc s
  omega

/-! ### Counts of digits -/

/-- Below its bound, a count is as it should be. -/
theorem wrapCount_of_lt {n : ℤ} (hlow : -(exponentBound : ℤ) ≤ n) (hup : n < exponentBound) :
    wrapCount n = n :=
  Int.bmod_eq_of_le_mul_two (by push_cast; omega) (by push_cast; omega)

/-- It makes no difference at which of the sums a count starts over. -/
theorem wrapCount_sub (m n : ℤ) : wrapCount (wrapCount m - wrapCount n) = wrapCount (m - n) := by
  rw [wrapCount, wrapCount, wrapCount, wrapCount, Int.bmod_sub_bmod, Int.sub_bmod_bmod]

/-! ### Numbers -/

/-- The digits of a literal that are kept, and the power of ten that they stand at without the
written exponent. Of the whole part and of the fraction, digits are kept from the left while the
number fits into sixty-four bits. -/
def kept (l : Literal) : ℕ × ℤ :=
  let whole := readDigits significandBound 0 l.whole
  let fraction := readDigits significandBound whole.1 l.fraction
  (fraction.1, whole.2.length - ((l.fraction.length - fraction.2.length : ℕ) : ℤ))

/-- The number that digits at a power of ten and a written exponent denote, none if it is not
finite. An exponent past the bound is not added up. -/
def scaled (negative : Bool) (digits : ℕ) (shift : ℤ) : Option Scale → Option Binary64
  | none => scale negative digits shift
  | some s =>
    if s.size < exponentBound then scale negative digits (clampExponent (shift + s.value))
    else if digits ≠ 0 ∧ !s.isNegative then none
    else some (.ofMagnitude negative 0)

/-- A fraction whose digits are counted to zero, so that it is taken to be missing: all of them are
kept, and there are `2 ^ 32` of them or a multiple of that. Only zeros can be so many. -/
def IsMissed (digits : ℕ) (fraction : List Char) : Prop :=
  fraction ≠ [] ∧ (readDigits significandBound digits fraction).2 = [] ∧
    wrapCount fraction.length = 0

instance (digits : ℕ) (fraction : List Char) : Decidable (IsMissed digits fraction) :=
  inferInstanceAs (Decidable (_ ∧ _))

/-- The number that a literal is read as where it is not read as a whole number, none if it is not
finite or if its fraction is missed. -/
def float? (l : Literal) : Option Binary64 :=
  if IsMissed (readDigits significandBound 0 l.whole).1 l.fraction then none
  else scaled l.negative (kept l).1 (wrapCount (kept l).2) l.scale

/-- What a literal is read as. -/
def scalar? (l : Literal) : Option Scalar :=
  if l.tail = [] ∧ digitsValue 0 l.whole < significandBound then
    some (wholeScalar l.negative (digitsValue 0 l.whole))
  else (float? l).map .float

theorem readScaled_of_scale {negative : Bool} {digits : ℕ} {exponent : ℤ} {x : Binary64}
    (h : scale negative digits exponent = some x) (rest : List Char) :
    readScaled negative digits exponent rest = .ok (.float x, rest) := by
  rw [readScaled, h]

theorem digitRun_append {s rest : List Char} (hs : ∀ c ∈ s, isDigit c = true)
    (hrest : NoDigitFirst rest) : digitRun (s ++ rest) = s :=
  Number.takeWhile_isDigit_append hs hrest

theorem digitRun_of_noDigitFirst {s : List Char} (h : NoDigitFirst s) : digitRun s = [] :=
  digitRun_append (s := []) (by simp) h

theorem afterDigits_append {s rest : List Char} (hs : ∀ c ∈ s, isDigit c = true)
    (hrest : NoDigitFirst rest) : afterDigits (s ++ rest) = rest :=
  Number.dropWhile_isDigit_append hs hrest

theorem readExponent_append {negative : Bool} {digits : ℕ} {shift : ℤ} {s : Scale} {x : Binary64}
    (h : scaled negative digits shift (some s) = some x) {rest : List Char}
    (hrest : NoDigitFirst rest) : readExponent negative digits shift
      (Scale.signChars s.sign ++ (s.digits ++ rest)) = .ok (.float x, rest) := by
  obtain ⟨d, t, hd⟩ := List.exists_cons_of_ne_nil s.digits_ne_nil
  have hdigit := s.isDigit_of_mem d (hd ▸ List.mem_cons_self)
  have hread := readDigits_append s.isDigit_of_mem hrest exponentBound 0
  rw [readExponent, exponentSign_append, hd, List.cons_append]
  dsimp only
  rw [if_pos hdigit, ← List.cons_append, ← hd, hread]
  dsimp only
  rw [scaled] at h
  split at h
  · next hlt =>
    rw [readDigits_of_lt s.isDigit_of_mem hlt, List.nil_append, digitRun_of_noDigitFirst hrest]
    exact readScaled_of_scale h rest
  · next hge =>
    -- a digit is left, so the exponent is past the bound
    have hleft := isDigit_of_mem_readDigits exponentBound 0 s.isDigit_of_mem
    obtain ⟨d', t', hd'⟩ := List.exists_cons_of_ne_nil
      (readDigits_ne_nil (by decide) (Nat.le_of_not_lt hge))
    rw [digitRun_append hleft hrest, afterDigits_append hleft hrest, hd']
    dsimp only
    split at h
    · cases h
    · next hzero =>
      cases h
      rw [if_neg hzero]

theorem readScale_append {negative : Bool} {digits : ℕ} {shift : ℤ} {scale : Option Scale}
    {x : Binary64} (h : scaled negative digits shift scale = some x) {rest : List Char}
    (hrest : Closed rest) :
    readScale negative digits shift (Literal.scaleChars scale ++ rest) = .ok (.float x, rest) := by
  cases scale with
  | none =>
    rw [Literal.scaleChars, List.nil_append]
    unfold readScale
    split
    · exact absurd rfl (hrest.ne rfl).2.2.1
    · exact absurd rfl (hrest.ne rfl).2.2.2
    · exact readScaled_of_scale h rest
  | some s =>
    have hexponent := readExponent_append h hrest.noDigitFirst
    rw [Literal.scaleChars, Scale.chars, List.cons_append, List.append_assoc]
    cases s.capital <;> exact hexponent

/-- What follows the whole part is read. -/
theorem readTail_append {l : Literal} {digits dropped : ℕ} {x : Binary64} {rest : List Char}
    (hmissed : ¬IsMissed digits l.fraction)
    (h : scaled l.negative (readDigits significandBound digits l.fraction).1
      (wrapCount (dropped - ((l.fraction.length -
        (readDigits significandBound digits l.fraction).2.length : ℕ) : ℤ))) l.scale = some x)
    (hrest : Closed rest) :
    readTail l.negative digits dropped (l.tail ++ rest) = .ok (.float x, rest) := by
  have hscale := noDigitFirst_scaleChars_append l.scale hrest
  rw [Literal.tail, List.append_assoc, Literal.fractionChars]
  split
  · next hfraction =>
    rw [hfraction] at h
    have h : scaled l.negative digits (wrapCount dropped) l.scale = some x := by
      simpa [readDigits] using h
    rw [List.nil_append, readTail]
    · exact readScale_append h hrest
    · exact scaleChars_append_ne_point l.scale hrest
  · next hfraction =>
    have hleft := isDigit_of_mem_readDigits significandBound digits l.isDigit_fraction
    have hplaces (front left : List Char) :
        (front ++ (Literal.scaleChars l.scale ++ rest)).length -
          (left ++ (Literal.scaleChars l.scale ++ rest)).length = front.length - left.length := by
      simp only [List.length_append, Nat.add_sub_add_right]
    rw [List.cons_append, readTail, readFraction, readDigits_append l.isDigit_fraction hscale]
    dsimp only
    rw [digitRun_append hleft hscale, afterDigits_append hleft hscale, hplaces, wrapCount_sub,
      if_neg]
    · exact readScale_append h hrest
    · rintro ⟨hnil, hcount⟩
      rw [hnil, List.length_nil, Nat.sub_zero] at hcount
      exact hmissed ⟨hfraction, hnil, hcount⟩

/-- After a whole part that fits, the number ends, or its tail is read. -/
theorem readWhole_of_tail {s : List Char} (negative : Bool) (digits : ℕ)
    (h : s.head? = some '.' ∨ s.head? = some 'e' ∨ s.head? = some 'E') :
    readWhole negative digits s = readTail negative digits 0 s := by
  -- the equations of the reader are not used: their generation is slow
  delta readWhole
  split
  · rfl
  · rfl
  · rfl
  · next hpoint hsmall hcapital =>
    rcases h with h | h | h <;> obtain ⟨t, rfl⟩ := List.head?_eq_some_iff.1 h
    · exact absurd rfl (hpoint t)
    · exact absurd rfl (hsmall t)
    · exact absurd rfl (hcapital t)

theorem readWhole_of_closed {rest : List Char} (hrest : Closed rest) (negative : Bool)
    (digits : ℕ) : readWhole negative digits rest = .ok (wholeScalar negative digits, rest) := by
  delta readWhole
  split
  · exact absurd rfl (hrest.ne rfl).2.1
  · exact absurd rfl (hrest.ne rfl).2.2.1
  · exact absurd rfl (hrest.ne rfl).2.2.2
  · rfl

theorem head?_tail {l : Literal} (h : l.tail ≠ []) :
    l.tail.head? = some '.' ∨ l.tail.head? = some 'e' ∨ l.tail.head? = some 'E' := by
  rw [Literal.tail, Literal.fractionChars] at h ⊢
  split
  · next hfraction =>
    rw [if_pos hfraction, List.nil_append] at h
    cases hs : l.scale with
    | none => exact absurd (by rw [hs]; rfl) h
    | some s => cases hc : s.capital <;> simp [Literal.scaleChars, Scale.chars, hc]
  · exact .inl rfl

variable {l : Literal} {v : Scalar} {rest : List Char}

theorem scaled_of_float? {x : Binary64} (h : float? l = some x) :
    ¬IsMissed (readDigits significandBound 0 l.whole).1 l.fraction ∧
      scaled l.negative (kept l).1 (wrapCount (kept l).2) l.scale = some x := by
  rw [float?] at h
  split at h
  · cases h
  · next hmissed => exact ⟨hmissed, h⟩

/-- Where the literal is not read as a whole number, its number is finite. -/
theorem exists_float?_of_scalar? (h : scalar? l = some v)
    (hwhole : l.tail = [] → significandBound ≤ digitsValue 0 l.whole) :
    ∃ x, float? l = some x ∧ v = .float x := by
  rw [scalar?, if_neg fun hw => (hwhole hw.1).not_gt hw.2] at h
  obtain ⟨x, hx, rfl⟩ := Option.map_eq_some_iff.1 h
  exact ⟨x, hx, rfl⟩

theorem readWhole_append (h : scalar? l = some v)
    (hlt : digitsValue 0 l.whole < significandBound) (hrest : Closed rest) :
    readWhole l.negative (digitsValue 0 l.whole) (l.tail ++ rest) = .ok (v, rest) := by
  by_cases htail : l.tail = []
  · rw [scalar?, if_pos ⟨htail, hlt⟩] at h
    cases h
    rw [htail, List.nil_append, readWhole_of_closed hrest]
  · obtain ⟨x, hx, rfl⟩ := exists_float?_of_scalar? h fun hnil => absurd hnil htail
    have hhead : (l.tail ++ rest).head? = l.tail.head? := List.head?_append_of_ne_nil _ htail
    obtain ⟨hmissed, hx⟩ := scaled_of_float? hx
    rw [readWhole_of_tail _ _ (hhead ▸ head?_tail htail)]
    rw [readDigits_of_lt l.isDigit_whole hlt] at hmissed
    rw [kept, readDigits_of_lt l.isDigit_whole hlt] at hx
    dsimp only [List.length_nil] at hx
    exact readTail_append hmissed hx hrest

theorem readUnsigned_append (h : scalar? l = some v) (hrest : Closed rest) :
    readUnsigned l.negative (l.whole ++ (l.tail ++ rest)) = .ok (v, rest) := by
  obtain ⟨c, t, hc⟩ := List.exists_cons_of_ne_nil l.whole_ne_nil
  have hdigit := l.isDigit_whole c (hc ▸ List.mem_cons_self)
  have htail := noDigitFirst_tail_append l hrest
  by_cases hzero : c = '0'
  · -- a zero in front is the whole part
    have hwhole : l.whole = ['0'] := l.whole_eq_zero (by rw [hc, hzero]; rfl)
    have hvalue : digitsValue 0 l.whole = 0 := by
      rw [hwhole]
      rfl
    have hread := readWhole_append h (by rw [hvalue]; exact Number.twoTo_pos 64) hrest
    rw [hvalue] at hread
    rw [hwhole, List.cons_append, List.nil_append, readUnsigned, if_pos rfl,
      digitRun_of_noDigitFirst htail]
    exact hread
  · have hleft := isDigit_of_mem_readDigits significandBound 0 l.isDigit_whole
    rw [hc, List.cons_append, readUnsigned, if_neg hzero, if_pos hdigit, ← List.cons_append, ← hc,
      readDigits_append l.isDigit_whole htail]
    dsimp only
    rw [digitRun_append hleft htail, afterDigits_append hleft htail]
    rcases Nat.lt_or_ge (digitsValue 0 l.whole) significandBound with hlt | hge
    · rw [readDigits_of_lt l.isDigit_whole hlt]
      exact readWhole_append h hlt hrest
    · obtain ⟨x, hx, rfl⟩ := exists_float?_of_scalar? h fun _ => hge
      obtain ⟨d, t', hd⟩ := List.exists_cons_of_ne_nil (readDigits_ne_nil (by decide) hge)
      obtain ⟨hmissed, hx⟩ := scaled_of_float? hx
      rw [kept] at hx
      dsimp only at hx
      rw [hd]
      dsimp only
      rw [← hd]
      exact readTail_append hmissed hx hrest

/-- **A literal is read.** -/
theorem readNumber_literal (h : scalar? l = some v) (hrest : Closed rest) :
    readNumber (l.chars ++ rest) = .ok (v, rest) := by
  have hread := readUnsigned_append h hrest
  rw [Literal.chars, Literal.signChars, List.append_assoc, List.append_assoc]
  cases hneg : l.negative
  · obtain ⟨c, t, hc⟩ := List.exists_cons_of_ne_nil l.whole_ne_nil
    have hdigit := l.isDigit_whole c (hc ▸ List.mem_cons_self)
    rw [if_neg Bool.false_ne_true, List.nil_append]
    rw [hneg, hc, List.cons_append] at hread
    rw [hc, List.cons_append, readNumber, hread]
    rintro t' heq
    exact Number.isDigit_ne hdigit (by decide) (List.cons.inj heq).1
  · rw [hneg] at hread
    exact hread

end BenchSweep.Json
