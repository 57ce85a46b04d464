import BenchSweep.Proofs.Json.Scalar

/-!
# The digits that are kept

Of a long literal only the first digits are kept, as many as fit into sixty-four bits. What is kept
is not above the literal, and it is close to it, since dropped digits come after at least `2 ^ 60`.
That holds even where digits of the whole part are dropped and a digit of the fraction fits in
their place: it is smaller than the first one dropped.

## Why digits after the point may be kept

The digits are kept from the left until the next one would not fit. The reader of the fraction then
starts anew: it asks of its first digit whether it fits, no matter if digits in front of the point
were dropped. At most one can fit, since what has been kept is already large, and it stands in the
place of the first digit that was dropped. As it is smaller than that one, what is kept is still not
above the literal. The cases are therefore split by whether digits of the whole part were dropped.

## The bound

A digit that does not fit comes after a number that is at least a tenth of the bound, so after more
than `2 ^ 60`. What is dropped is less than one unit of what is kept, and the error is a part of
`2 ^ 60` of it. This is small against one rounding, which is a part of `2 ^ 53`.

## Main definitions

* `keptDecimal`: the decimal of the digits that are kept.

## Main results

* `value_keptDecimal_le`, `value_decimal_le`: bounds of what is dropped.
* `keptDecimal_eq`: below `2 ^ 60`, nothing is dropped.
-/

namespace BenchSweep.Json

open Number (Decimal Literal digit? digitsValue isDigit tenTo twoTo)

/-! ### Runs of digits -/

theorem mul_tenTo_le_digitsValue (acc : ℕ) (s : List Char) :
    acc * tenTo s.length ≤ digitsValue acc s := by
  rw [Number.digitsValue_eq_add]
  exact Nat.le_add_right _ _

theorem digitsValue_lt_mul_tenTo (acc : ℕ) {s : List Char} (hs : ∀ c ∈ s, isDigit c = true) :
    digitsValue acc s < (acc + 1) * tenTo s.length := by
  rw [Number.digitsValue_eq_add, Nat.succ_mul]
  exact Nat.add_lt_add_left (Number.digitsValue_lt hs) _

/-- The first digit that is dropped does not fit. -/
theorem bound_le_of_readDigits {bound acc : ℕ} {s rest : List Char} {c : Char}
    (hs : ∀ c ∈ s, isDigit c = true) (h : (readDigits bound acc s).2 = c :: rest) :
    bound ≤ (readDigits bound acc s).1 * 10 + (digit? c).getD 0 := by
  induction s generalizing acc with
  | nil => cases h
  | cons d s ih =>
    obtain ⟨hd, hs⟩ := List.forall_mem_cons.1 hs
    rw [readDigits, Number.digit?_of_isDigit hd] at h ⊢
    dsimp only at h ⊢
    split at h
    · next hlt =>
      rw [if_pos hlt]
      exact ih hs h
    · next hge =>
      rw [if_neg hge]
      cases h
      rw [Number.digit?_of_isDigit hd]
      exact Nat.not_lt.1 hge

/-- A first digit that is kept fits. -/
theorem lt_bound_of_readDigits {bound acc : ℕ} {c : Char} {t : List Char} (hc : isDigit c = true)
    (h : (readDigits bound acc (c :: t)).2 ≠ c :: t) : acc * 10 + (digit? c).getD 0 < bound := by
  rw [readDigits, Number.digit?_of_isDigit hc] at h
  dsimp only at h
  rw [Number.digit?_of_isDigit hc]
  split at h
  · assumption
  · exact absurd rfl h

/-! ### What is kept -/

/-- The decimal of the digits that are kept. -/
def keptDecimal (l : Literal) : Decimal :=
  ⟨(kept l).1, (kept l).2 + Literal.scaleValue l.scale⟩

/-- Dropped digits come after many. -/
def manyDigits : ℕ :=
  twoTo 60

section Digits

variable (l : Literal)

/-- The digits of the whole part that are kept, as a number, and those that are dropped. -/
def keptWhole : ℕ × List Char :=
  readDigits significandBound 0 l.whole

/-- The digits of the fraction that are kept, as a number with those of the whole part in front, and
those that are dropped. -/
def keptFraction : ℕ × List Char :=
  readDigits significandBound (keptWhole l).1 l.fraction

/-- How many digits are dropped. -/
def dropped : ℕ :=
  (keptWhole l).2.length + (keptFraction l).2.length

theorem manyDigits_le {n : ℕ} {c : Char} (hc : isDigit c = true)
    (h : significandBound ≤ n * 10 + (digit? c).getD 0) : manyDigits ≤ n := by
  have hd := Number.digit?_lt (Number.digit?_of_isDigit hc)
  rw [Number.digit?_of_isDigit hc, Option.getD_some] at h
  have hbound : significandBound = manyDigits * 16 := rfl
  have hmany : 10 ≤ manyDigits := by decide
  omega

theorem keptWhole_le : (keptWhole l).1 ≤ (keptFraction l).1 := by
  obtain ⟨front, -, hvalue⟩ := exists_readDigits significandBound (keptWhole l).1 l.fraction
  rw [keptFraction, hvalue]
  exact Number.le_digitsValue _ _

theorem exists_whole_eq : ∃ front, l.whole = front ++ (keptWhole l).2 ∧
    (keptWhole l).1 = digitsValue 0 front :=
  exists_readDigits significandBound 0 l.whole

theorem exists_fraction_eq : ∃ front, l.fraction = front ++ (keptFraction l).2 ∧
    (keptFraction l).1 = digitsValue (keptWhole l).1 front :=
  exists_readDigits significandBound (keptWhole l).1 l.fraction

theorem coefficient_eq :
    l.decimal.coefficient = digitsValue (digitsValue 0 l.whole) l.fraction :=
  Number.digitsValue_append 0 l.whole l.fraction

/-- Where all of the whole part is kept, the digits that are kept are the first ones. -/
theorem kept_of_fraction (h : (keptWhole l).2 = []) :
    (keptFraction l).1 * tenTo (dropped l) ≤ l.decimal.coefficient ∧
      l.decimal.coefficient < ((keptFraction l).1 + 1) * tenTo (dropped l) ∧
      ((keptFraction l).2 ≠ [] → manyDigits ≤ (keptFraction l).1) := by
  obtain ⟨front, hwhole, hvalue⟩ := exists_whole_eq l
  obtain ⟨front', hfraction, hvalue'⟩ := exists_fraction_eq l
  have hdigits : ∀ c ∈ (keptFraction l).2, isDigit c = true := fun c hc =>
    l.isDigit_fraction c (hfraction ▸ List.mem_append_right _ hc)
  rw [h, List.append_nil] at hwhole
  have hc : l.decimal.coefficient = digitsValue (keptFraction l).1 (keptFraction l).2 := by
    conv_lhs => rw [coefficient_eq, hwhole, ← hvalue, hfraction]
    rw [Number.digitsValue_append, ← hvalue']
  rw [hc, dropped, h, List.length_nil, Nat.zero_add]
  refine ⟨mul_tenTo_le_digitsValue _ _, digitsValue_lt_mul_tenTo _ hdigits, fun hne => ?_⟩
  obtain ⟨c, rest, hrest⟩ := List.exists_cons_of_ne_nil hne
  exact manyDigits_le (hdigits c (hrest ▸ List.mem_cons_self))
    (bound_le_of_readDigits l.isDigit_fraction hrest)

/-- A digit of the fraction that is kept is smaller than the first one of the whole part that is
dropped: it fits where that one does not. -/
theorem digit_lt_digit {c d : Char} {t rest : List Char}
    (hfraction : l.fraction = c :: t ++ (keptFraction l).2) (hrest : (keptWhole l).2 = d :: rest) :
    (digit? c).getD 0 < (digit? d).getD 0 := by
  have hc : isDigit c = true := l.isDigit_fraction c (hfraction ▸ List.mem_cons_self)
  have hfits : (keptWhole l).1 * 10 + (digit? c).getD 0 < significandBound := by
    refine lt_bound_of_readDigits (t := t ++ (keptFraction l).2) hc ?_
    rw [← List.cons_append, ← hfraction]
    intro heq
    have hlength := congrArg List.length (hfraction.symm.trans heq.symm)
    rw [← keptFraction, List.length_append, List.length_cons] at hlength
    omega
  have hdrops := bound_le_of_readDigits l.isDigit_whole hrest
  rw [← keptWhole] at hdrops
  omega

/-- Where a digit of the whole part is dropped, the literal is not below what is kept: a digit of
the fraction that is kept is smaller than the one dropped. -/
theorem kept_le_of_whole (h : (keptWhole l).2 ≠ []) :
    (keptFraction l).1 * tenTo (dropped l) ≤ l.decimal.coefficient := by
  obtain ⟨front, hwhole, hvalue⟩ := exists_whole_eq l
  obtain ⟨front', hfraction, hvalue'⟩ := exists_fraction_eq l
  obtain ⟨d, rest, hrest⟩ := List.exists_cons_of_ne_nil h
  have hlength : l.fraction.length = front'.length + (keptFraction l).2.length :=
    (congrArg List.length hfraction).trans List.length_append
  have hwholeLe : digitsValue (keptWhole l).1 (keptWhole l).2 * tenTo l.fraction.length ≤
      l.decimal.coefficient := by
    conv_rhs => rw [coefficient_eq, hwhole, Number.digitsValue_append, ← hvalue]
    exact mul_tenTo_le_digitsValue _ _
  refine le_trans ?_ hwholeLe
  rw [dropped, hvalue']
  cases front' with
  | nil =>
    rw [List.length_nil, Nat.zero_add] at hlength
    rw [Number.digitsValue_nil, hlength, ← Number.tenTo_add, ← Nat.mul_assoc]
    exact Nat.mul_le_mul_right _ (mul_tenTo_le_digitsValue _ _)
  | cons c t =>
    have hdigit : ∀ x ∈ t, isDigit x = true := fun x hx =>
      l.isDigit_fraction x (hfraction ▸ List.mem_append_left _ (List.mem_cons_of_mem c hx))
    have hlt := digit_lt_digit l hfraction hrest
    have hbelow : digitsValue (keptWhole l).1 (c :: t) <
        ((keptWhole l).1 * 10 + (digit? d).getD 0) * tenTo t.length := by
      rw [Number.digitsValue_cons]
      exact (digitsValue_lt_mul_tenTo _ hdigit).trans_le (Nat.mul_le_mul_right _ (by omega))
    have hwholeGe : ((keptWhole l).1 * 10 + (digit? d).getD 0) * tenTo rest.length ≤
        digitsValue (keptWhole l).1 (keptWhole l).2 := by
      rw [hrest, Number.digitsValue_cons]
      exact mul_tenTo_le_digitsValue _ _
    calc digitsValue (keptWhole l).1 (c :: t) *
          tenTo ((keptWhole l).2.length + (keptFraction l).2.length)
        ≤ ((keptWhole l).1 * 10 + (digit? d).getD 0) * tenTo t.length *
          tenTo ((keptWhole l).2.length + (keptFraction l).2.length) :=
          Nat.mul_le_mul_right _ hbelow.le
      _ = ((keptWhole l).1 * 10 + (digit? d).getD 0) * tenTo rest.length *
          tenTo l.fraction.length := by
          rw [Nat.mul_assoc, Nat.mul_assoc, Number.tenTo_add, Number.tenTo_add, hlength, hrest,
            List.length_cons, List.length_cons]
          congr 2
          omega
      _ ≤ _ := Nat.mul_le_mul_right _ hwholeGe

/-- Where a digit of the whole part is dropped, many are kept, and the literal and what is kept have
the kept digits of the whole part in common. -/
theorem kept_of_whole (h : (keptWhole l).2 ≠ []) :
    manyDigits ≤ (keptWhole l).1 ∧
      (keptWhole l).1 * tenTo ((keptWhole l).2.length + l.fraction.length) ≤
        (keptFraction l).1 * tenTo (dropped l) ∧
      l.decimal.coefficient <
        ((keptWhole l).1 + 1) * tenTo ((keptWhole l).2.length + l.fraction.length) := by
  obtain ⟨front, hwhole, hvalue⟩ := exists_whole_eq l
  obtain ⟨front', hfraction, hvalue'⟩ := exists_fraction_eq l
  obtain ⟨d, rest, hrest⟩ := List.exists_cons_of_ne_nil h
  have hdigits : ∀ c ∈ (keptWhole l).2, isDigit c = true := fun c hc =>
    l.isDigit_whole c (hwhole ▸ List.mem_append_right _ hc)
  have hlength : l.fraction.length = front'.length + (keptFraction l).2.length :=
    (congrArg List.length hfraction).trans List.length_append
  refine ⟨manyDigits_le (hdigits d (hrest ▸ List.mem_cons_self))
    (bound_le_of_readDigits l.isDigit_whole hrest), ?_, ?_⟩
  · rw [hlength, dropped, Nat.add_left_comm, ← Number.tenTo_add, ← Nat.mul_assoc, hvalue']
    exact Nat.mul_le_mul_right _ (mul_tenTo_le_digitsValue _ _)
  · have hwholeLt :
        digitsValue 0 l.whole < ((keptWhole l).1 + 1) * tenTo (keptWhole l).2.length := by
      conv_lhs => rw [hwhole, Number.digitsValue_append, ← hvalue]
      exact digitsValue_lt_mul_tenTo _ hdigits
    rw [coefficient_eq, ← Number.tenTo_add, ← Nat.mul_assoc]
    exact (digitsValue_lt_mul_tenTo _ l.isDigit_fraction).trans_le
      (Nat.mul_le_mul_right _ hwholeLt)

/-! ### The decimal of the digits that are kept -/

theorem mul_le_of_lt_succ_mul {c many n p g : ℕ} (hmany : many ≤ n) (hg : n * p ≤ g)
    (hc : c < (n + 1) * p) : c * many ≤ (many + 1) * g :=
  calc c * many ≤ (n + 1) * p * many := Nat.mul_le_mul_right _ hc.le
    _ = n * p * many + many * p := by ring
    _ ≤ n * p * many + n * p := Nat.add_le_add_left (Nat.mul_le_mul_right _ hmany) _
    _ = (many + 1) * (n * p) := by ring
    _ ≤ (many + 1) * g := Nat.mul_le_mul_left _ hg

/-- Nothing is dropped, or many digits are kept. -/
theorem dropped_eq_zero_or :
    dropped l = 0 ∧ (keptFraction l).1 = l.decimal.coefficient ∨
      manyDigits ≤ (keptFraction l).1 := by
  by_cases h : (keptWhole l).2 = []
  · obtain ⟨hlow, hup, hmany⟩ := kept_of_fraction l h
    by_cases h' : (keptFraction l).2 = []
    · have hdropped : dropped l = 0 := by
        rw [dropped, h, h']
        rfl
      rw [hdropped, Number.tenTo_zero] at hlow hup
      exact .inl ⟨hdropped, by omega⟩
    · exact .inr (hmany h')
  · exact .inr ((kept_of_whole l h).1.trans (keptWhole_le l))

/-- What is dropped is a small part of what is kept. -/
theorem coefficient_bounds :
    (keptFraction l).1 * tenTo (dropped l) ≤ l.decimal.coefficient ∧
      l.decimal.coefficient * manyDigits ≤
        (manyDigits + 1) * ((keptFraction l).1 * tenTo (dropped l)) := by
  by_cases h : (keptWhole l).2 = []
  · obtain ⟨hlow, hup, -⟩ := kept_of_fraction l h
    refine ⟨hlow, ?_⟩
    rcases dropped_eq_zero_or l with ⟨hzero, heq⟩ | hmany
    · rw [hzero, Number.tenTo_zero, heq, Nat.mul_one, Nat.mul_comm]
      exact Nat.mul_le_mul_right _ (Nat.le_succ _)
    · exact mul_le_of_lt_succ_mul hmany le_rfl hup
  · obtain ⟨hmany, hcommon, hup⟩ := kept_of_whole l h
    exact ⟨kept_le_of_whole l h, mul_le_of_lt_succ_mul hmany hcommon hup⟩

theorem keptDecimal_mk : keptDecimal l =
    ⟨(keptFraction l).1, (dropped l : ℤ) + l.decimal.exponent⟩ := by
  obtain ⟨front, hfraction, -⟩ := exists_fraction_eq l
  have hlength : l.fraction.length = front.length + (keptFraction l).2.length :=
    (congrArg List.length hfraction).trans List.length_append
  have hkept : kept l = ((keptFraction l).1, ((keptWhole l).2.length : ℤ) -
      ((l.fraction.length - (keptFraction l).2.length : ℕ) : ℤ)) := rfl
  rw [keptDecimal, hkept, dropped, Literal.decimal, Decimal.mk.injEq]
  exact ⟨rfl, by dsimp only; omega⟩

/-- Below many digits, nothing is dropped. -/
theorem keptDecimal_eq (h : (keptDecimal l).coefficient < manyDigits) :
    keptDecimal l = l.decimal := by
  rw [keptDecimal_mk] at h ⊢
  rcases dropped_eq_zero_or l with ⟨hzero, heq⟩ | hmany
  · rw [hzero, heq, Nat.cast_zero, zero_add]
  · exact absurd h (Nat.not_lt.2 hmany)

theorem coefficient_keptDecimal_lt : (keptDecimal l).coefficient < significandBound :=
  readDigits_lt (readDigits_lt (Number.twoTo_pos 64) _) _

theorem exponent_le_keptDecimal : l.decimal.exponent ≤ (keptDecimal l).exponent := by
  rw [keptDecimal_mk]
  exact le_add_of_nonneg_left (Int.natCast_nonneg _)

theorem value_keptDecimal : (keptDecimal l).value =
    ((keptFraction l).1 * tenTo (dropped l) : ℕ) * (10 : ℚ) ^ l.decimal.exponent := by
  rw [keptDecimal_mk, Decimal.value, zpow_add₀ (by norm_num), ← mul_assoc, Nat.cast_mul,
    Number.tenTo_eq, Nat.cast_pow, zpow_natCast, Nat.cast_ofNat]

/-- What is kept is not above the literal. -/
theorem value_keptDecimal_le : (keptDecimal l).value ≤ l.decimal.value := by
  rw [value_keptDecimal, Decimal.value]
  exact mul_le_mul_of_nonneg_right (Nat.cast_le.2 (coefficient_bounds l).1)
    (zpow_nonneg (by norm_num) _)

/-- The literal is little above what is kept. -/
theorem value_decimal_le :
    l.decimal.value ≤ (1 + 1 / (manyDigits : ℚ)) * (keptDecimal l).value := by
  have hmany : (0 : ℚ) < manyDigits := Nat.cast_pos.2 (Number.twoTo_pos 60)
  have hbound : (l.decimal.coefficient * manyDigits : ℚ) ≤
      (manyDigits + 1) * ((keptFraction l).1 * tenTo (dropped l) : ℕ) := by
    exact_mod_cast (coefficient_bounds l).2
  rw [value_keptDecimal, Decimal.value, ← mul_assoc]
  refine mul_le_mul_of_nonneg_right ?_ (zpow_nonneg (by norm_num) _)
  rw [one_add_div hmany.ne', div_mul_eq_mul_div, le_div_iff₀ hmany]
  exact hbound

end Digits

end BenchSweep.Json
