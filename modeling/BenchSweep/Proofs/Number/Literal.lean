import BenchSweep.Number.Notation
import BenchSweep.Number.Numeral
import BenchSweep.Proofs.Number.Decimal
import Mathlib.Data.Nat.Cast.Field

/-!
# Literals

A literal is a number as it is written: a sign, a whole part without a needless zero in front, a
fraction and an exponent. The three texts of a finite number are literals, and so are the numbers of
a JSON text; the reader of numerals reads every literal, correctly rounded.

## Why a literal carries proofs

A literal is built from its parts, and its text is computed. With the conditions on the parts as
fields, a text that is not a number cannot be built, and a reader that goes through `Literal.chars`
finds at every place what it looks for. The readers of numerals and of configurations are two, and
so are the writers; each is connected with literals once, instead of with each of the others.

## Scope

Every literal denotes a decimal, whatever the length of its exponent is, and the number nearest to
it may be infinite. A fraction that is empty is written without a point. Texts of numerals that are
no literals, such as those with a plus sign, are covered by `BenchSweep.Proofs.Number.Grammar`.

## Main definitions

* `Literal`: the parts of a literal.
* `Literal.chars`: its text.
* `Literal.decimal`: the decimal that it denotes, without the sign.

## Main results

* `Literal.readBinary64_chars`: a literal is read as the number nearest to it.
* `exists_literal_positional`: a decimal in positional notation is a literal.
* `Binary64.readBinary64_ratioChars`: the text of a finite ratio reads back to it.
-/

namespace BenchSweep.Number

/-- The exponent of a literal, as it is written. -/
structure Scale where
  capital : Bool
  /-- Whether the sign is a minus; none if it is left out. -/
  sign : Option Bool
  digits : List Char
  digits_ne_nil : digits ≠ []
  isDigit_of_mem : ∀ c ∈ digits, isDigit c = true

namespace Scale

/-- The sign of an exponent. -/
def signChars : Option Bool → List Char
  | none => []
  | some true => ['-']
  | some false => ['+']

/-- The text of an exponent. -/
def chars (s : Scale) : List Char :=
  (if s.capital then 'E' else 'e') :: (signChars s.sign ++ s.digits)

/-- Whether an exponent is negative. -/
def isNegative (s : Scale) : Bool :=
  s.sign = some true

/-- The absolute value of an exponent. -/
def size (s : Scale) : ℕ :=
  digitsValue 0 s.digits

/-- The value of an exponent. -/
def value (s : Scale) : ℤ :=
  if s.isNegative then -(s.size : ℤ) else s.size

end Scale

/-- A number as it is written. An empty fraction is written without a point. -/
structure Literal where
  negative : Bool
  whole : List Char
  fraction : List Char := []
  scale : Option Scale := none
  whole_ne_nil : whole ≠ []
  isDigit_whole : ∀ c ∈ whole, isDigit c = true
  /-- A zero stands in front only if it stands alone. -/
  whole_eq_zero : whole.head? = some '0' → whole = ['0']
  isDigit_fraction : ∀ c ∈ fraction, isDigit c = true := by simp

namespace Literal

/-- The text of a fraction. -/
def fractionChars (fraction : List Char) : List Char :=
  if fraction = [] then [] else '.' :: fraction

/-- The text of an exponent, if there is one. -/
def scaleChars : Option Scale → List Char
  | none => []
  | some scale => scale.chars

/-- The value of an exponent, zero if there is none. -/
def scaleValue : Option Scale → ℤ
  | none => 0
  | some scale => scale.value

/-- What follows the whole part of a literal. -/
def tail (l : Literal) : List Char :=
  fractionChars l.fraction ++ scaleChars l.scale

/-- The sign of a literal. -/
def signChars (negative : Bool) : List Char :=
  if negative then ['-'] else []

/-- The text of a literal. -/
def chars (l : Literal) : List Char :=
  signChars l.negative ++ (l.whole ++ l.tail)

/-- The decimal that a literal denotes, without the sign. -/
def decimal (l : Literal) : Decimal :=
  ⟨digitsValue 0 (l.whole ++ l.fraction), scaleValue l.scale - (l.fraction.length : ℤ)⟩

/-- The rational number that a literal denotes. -/
def value (l : Literal) : ℚ :=
  if l.negative then -l.decimal.value else l.decimal.value

/-! ### Reading -/

theorem noDigitFirst_scaleChars (scale : Option Scale) : NoDigitFirst (scaleChars scale) := by
  cases scale with
  | none => simp [NoDigitFirst, scaleChars]
  | some s => cases hs : s.capital <;> simp [NoDigitFirst, scaleChars, Scale.chars, hs] <;> decide

/-- A run of digits ends at an exponent. -/
theorem splitPoint_append_scaleChars {whole : List Char} (h : ∀ c ∈ whole, isDigit c = true)
    (scale : Option Scale) :
    splitPoint (whole ++ scaleChars scale) = (whole, [], scaleChars scale) := by
  have hscale := noDigitFirst_scaleChars scale
  rw [splitPoint, dropWhile_isDigit_append h hscale, takeWhile_isDigit_append h hscale]
  split
  · next t ht =>
    exfalso
    cases hs : scale with
    | none => simp [hs, scaleChars] at ht
    | some s => cases hc : s.capital <;> simp [hs, scaleChars, Scale.chars, hc] at ht
  · rfl

/-- A run of digits ends at a point, and so does the next one at an exponent. -/
theorem splitPoint_append_point {whole fraction : List Char} (hw : ∀ c ∈ whole, isDigit c = true)
    (hf : ∀ c ∈ fraction, isDigit c = true) (scale : Option Scale) :
    splitPoint (whole ++ '.' :: (fraction ++ scaleChars scale)) =
      (whole, fraction, scaleChars scale) := by
  have hscale := noDigitFirst_scaleChars scale
  have hpoint : NoDigitFirst ('.' :: (fraction ++ scaleChars scale)) := by
    simp [NoDigitFirst]
    decide
  rw [splitPoint, dropWhile_isDigit_append hw hpoint, takeWhile_isDigit_append hw hpoint]
  simp only [dropWhile_isDigit_append hf hscale, takeWhile_isDigit_append hf hscale]

theorem splitPoint_whole_tail (l : Literal) :
    splitPoint (l.whole ++ l.tail) = (l.whole, l.fraction, scaleChars l.scale) := by
  by_cases hf : l.fraction = []
  · have htail : l.tail = scaleChars l.scale := by simp [tail, fractionChars, hf]
    rw [htail, splitPoint_append_scaleChars l.isDigit_whole, hf]
  · have htail : l.tail = '.' :: (l.fraction ++ scaleChars l.scale) := by
      simp [tail, fractionChars, hf]
    rw [htail, splitPoint_append_point l.isDigit_whole l.isDigit_fraction]

/-- The sign and the digits of an exponent are told apart. -/
theorem readExponent?_scaleChars (scale : Option Scale) :
    readExponent? (scaleChars scale) = some (scaleValue scale) := by
  cases scale with
  | none => rfl
  | some s =>
    have hmarker : (if s.capital then 'E' else 'e') = 'e' ∨
        (if s.capital then 'E' else 'e') = 'E' := by
      cases s.capital <;> simp
    have hdigits : s.digits ≠ [] ∧ s.digits.all isDigit = true :=
      ⟨s.digits_ne_nil, List.all_eq_true.2 s.isDigit_of_mem⟩
    rw [scaleChars, Scale.chars, scaleValue, Scale.value, Scale.isNegative, Scale.size]
    rcases hs : s.sign with _ | _ | _
    · obtain ⟨d, t, hd⟩ := List.exists_cons_of_ne_nil s.digits_ne_nil
      have hdigit := s.isDigit_of_mem d (hd ▸ List.mem_cons_self)
      rw [Scale.signChars, List.nil_append, readExponent?, if_pos hmarker, if_pos hdigits]
      · rfl
      · rintro t' h
        exact isDigit_ne hdigit (by decide) (List.cons.inj (hd ▸ h)).1
      · rintro t' h
        exact isDigit_ne hdigit (by decide) (List.cons.inj (hd ▸ h)).1
    · rw [Scale.signChars, List.cons_append, List.nil_append, readExponent?, if_pos hmarker,
        if_pos hdigits]
      rfl
    · rw [Scale.signChars, List.cons_append, List.nil_append, readExponent?, if_pos hmarker,
        if_pos hdigits]
      rfl

/-- A literal is read as the decimal that it denotes. -/
theorem readDecimal?_whole_tail (l : Literal) :
    readDecimal? (l.whole ++ l.tail) = some l.decimal := by
  rw [readDecimal?, splitPoint_whole_tail]
  dsimp only
  rw [if_neg (fun h => l.whole_ne_nil h.1), readExponent?_scaleChars]
  rfl

/-- The number nearest to a literal. -/
def number (l : Literal) : Binary64 :=
  .ofMagnitude l.negative l.decimal.magnitude

/-- **A literal is read as the number nearest to it.** -/
theorem readBinary64_chars (l : Literal) : readBinary64 l.chars = .ok l.number := by
  obtain ⟨c, t, hc⟩ := List.exists_cons_of_ne_nil l.whole_ne_nil
  have hdigit := l.isDigit_whole c (hc ▸ List.mem_cons_self)
  have hread : readUnsigned? (l.whole ++ l.tail) = some (.decimal l.decimal) := by
    rw [readUnsigned?, readDecimal?_whole_tail]
  have hplain : Numeral.read? (l.whole ++ l.tail) = some ⟨false, .decimal l.decimal⟩ := by
    rw [hc, List.cons_append, Numeral.read?, ← List.cons_append, ← hc, hread]
    · rfl
    · rintro t' h
      exact isDigit_ne hdigit (by decide) (List.cons.inj h).1
    · rintro t' h
      exact isDigit_ne hdigit (by decide) (List.cons.inj h).1
  have hsigned : Numeral.read? l.chars = some ⟨l.negative, .decimal l.decimal⟩ := by
    rw [chars, signChars]
    cases l.negative
    · exact hplain
    · rw [if_pos rfl, List.cons_append, List.nil_append, Numeral.read?, hread]
      rfl
  have hne : l.chars ≠ [] := by simp [chars, l.whole_ne_nil]
  rw [readBinary64, if_neg hne, hsigned]
  rfl

end Literal

/-! ### Written numbers -/

open Literal (signChars)
open Decimal (value value_ofNat)

/-- Digits around a point are a literal. -/
theorem exists_literal_point (negative : Bool) {w f : List Char} (hw : w ≠ []) (hf : f ≠ [])
    (hwhole : ∀ c ∈ w, isDigit c = true) (hzero : w.head? = some '0' → w = ['0'])
    (hfraction : ∀ c ∈ f, isDigit c = true) :
    ∃ l : Literal, l.negative = negative ∧ l.scale = none ∧
      l.chars = signChars negative ++ (w ++ '.' :: f) ∧
      l.decimal = ⟨digitsValue 0 (w ++ f), -(f.length : ℤ)⟩ := by
  refine ⟨⟨negative, w, f, none, hw, hwhole, hzero, hfraction⟩, rfl, rfl, ?_, ?_⟩
  · simp [Literal.chars, Literal.tail, Literal.fractionChars, Literal.scaleChars, hf]
  · rw [Literal.decimal, Literal.scaleValue, zero_sub]

/-- A number with a point and a zero after it. -/
theorem value_mul_ten (n : ℕ) : value ⟨n * 10, -1⟩ = n := by
  rw [value, zpow_neg_one, Nat.cast_mul]
  exact mul_inv_cancel_right₀ (by norm_num) _

theorem exists_literal_whole (negative : Bool) {w : List Char} (hw : w ≠ [])
    (hwhole : ∀ c ∈ w, isDigit c = true) (hzero : w.head? = some '0' → w = ['0']) :
    ∃ l : Literal, l.negative = negative ∧ l.scale = none ∧
      l.chars = signChars negative ++ (w ++ ['.', '0']) ∧
      l.decimal = ⟨digitsValue 0 w * 10, -1⟩ := by
  obtain ⟨l, hn, hs, hc, hd⟩ :=
    exists_literal_point negative hw (List.cons_ne_nil '0' []) hwhole hzero
      (List.forall_mem_singleton.2 rfl)
  exact ⟨l, hn, hs, hc, hd.trans (congrArg (Decimal.mk · _) (digitsValue_append 0 w ['0']))⟩

theorem isDigit_of_mem_replicate {n : ℕ} {c : Char} (h : c ∈ List.replicate n '0') :
    isDigit c = true :=
  (List.eq_of_mem_replicate h) ▸ rfl

/-- The digits of a number with zeros after them are a whole part. -/
theorem head?_decimal_append {n : ℕ} (hn : 0 < n) (s : List Char) :
    (decimal n ++ s).head? ≠ some '0' := by
  rw [List.head?_append_of_ne_nil _ (decimal_ne_nil n)]
  exact head?_decimal_ne hn

/-- In positional notation, a decimal with places has as many digits after a point. -/
theorem exists_positional_eq {c : ℕ} (hc : 0 < c) (e : ℕ) :
    ∃ w f, positional ⟨c, .negSucc e⟩ = w ++ '.' :: f ∧ w ≠ [] ∧
      (∀ x ∈ w, isDigit x = true) ∧ (w.head? = some '0' → w = ['0']) ∧
      (∀ x ∈ f, isDigit x = true) ∧ f.length = e + 1 ∧ digitsValue 0 (w ++ f) = c := by
  have hdigits : ∀ x ∈ decimal c, isDigit x = true := fun _ => isDigit_of_mem_decimal
  by_cases hlt : e + 1 < (decimal c).length
  · -- the point stands inside the digits
    obtain ⟨n, hn⟩ : ∃ n, n = (decimal c).length - (e + 1) := ⟨_, rfl⟩
    refine ⟨(decimal c).take n, (decimal c).drop n, ?_, ?_, fun x hx => hdigits x
      (List.mem_of_mem_take hx), fun h => ?_, fun x hx => hdigits x (List.mem_of_mem_drop hx), ?_,
      ?_⟩
    · simp [positional, hlt, hn]
    · rw [Ne, List.take_eq_nil_iff, not_or]
      exact ⟨by omega, decimal_ne_nil c⟩
    · rw [List.head?_take, if_neg (by omega)] at h
      exact absurd h (head?_decimal_ne hc)
    · rw [List.length_drop]
      omega
    · rw [List.take_append_drop, digitsValue_decimal]
  · -- the point stands in front of the digits
    refine ⟨['0'], List.replicate (e + 1 - (decimal c).length) '0' ++ decimal c, ?_, by simp,
      List.forall_mem_singleton.2 rfl, fun _ => rfl,
      List.forall_mem_append.2 ⟨fun _ => isDigit_of_mem_replicate, hdigits⟩, ?_, ?_⟩
    · simp [positional, hlt]
    · rw [List.length_append, List.length_replicate]
      omega
    · have hzero : digitsValue 0 ['0'] = 0 := rfl
      rw [digitsValue_append, digitsValue_append, digitsValue_replicate_zero, hzero, Nat.zero_mul,
        digitsValue_decimal]

/-- A decimal in positional notation is a literal. -/
theorem exists_literal_positional (negative : Bool) {d : Decimal} (hd : 0 < d.coefficient) :
    ∃ l : Literal, l.negative = negative ∧ l.scale = none ∧
      l.chars = signChars negative ++ positional d ∧ l.decimal.value = d.value ∧
      (d.exponent < 0 → l.decimal = d) := by
  obtain ⟨c, e⟩ := d
  cases e with
  | ofNat e =>
    refine ⟨⟨negative, decimal c ++ List.replicate e '0', [], none, by simp [decimal_ne_nil],
      List.forall_mem_append.2 ⟨fun _ => isDigit_of_mem_decimal, fun _ => isDigit_of_mem_replicate⟩,
      fun h => absurd h (head?_decimal_append hd _), by simp⟩, rfl, rfl, ?_, ?_, ?_⟩
    · simp [Literal.chars, Literal.tail, Literal.fractionChars, Literal.scaleChars, positional]
    · simp only [Literal.decimal, Literal.scaleValue, List.append_nil, List.length_nil]
      rw [digitsValue_append, digitsValue_decimal, digitsValue_replicate_zero, value_ofNat,
        value, Int.natCast_zero, sub_zero, zpow_zero, mul_one]
    · exact fun h => absurd h (Int.not_lt.2 (Int.natCast_nonneg e))
  | negSucc e =>
    obtain ⟨w, f, htext, hw, hwhole, hzero, hfraction, hlength, hvalue⟩ :=
      exists_positional_eq hd e
    obtain ⟨l, hn, hs, hl, hdecimal⟩ := exists_literal_point negative hw
      (List.ne_nil_of_length_eq_add_one hlength) hwhole hzero hfraction
    rw [hvalue, hlength] at hdecimal
    exact ⟨l, hn, hs, htext ▸ hl, congrArg value hdecimal, fun _ => hdecimal⟩

namespace Binary64

theorem withSign_eq (x : Binary64) (text : List Char) :
    x.withSign text = signChars x.isNegative ++ text := by
  rw [withSign, signChars]
  split <;> rfl

/-- A literal with the sign and the magnitude of a number is read as the number. -/
theorem readBinary64_of_literal {x : Binary64} {l : Literal} {text : List Char}
    (hn : l.negative = x.isNegative) (hc : l.chars = signChars x.isNegative ++ text)
    (hm : l.decimal.magnitude = x.magnitude) : readBinary64 (x.withSign text) = .ok x := by
  rw [withSign_eq, ← hc, Literal.readBinary64_chars, Literal.number, hn, hm,
    ofMagnitude_magnitude]

/-- A whole number is its units without a remainder. -/
theorem value_of_isWhole {x : Binary64} (h : x.isWhole = true) :
    Binary64.value x.magnitude = (units x.magnitude / unitsPerOne : ℕ) := by
  have hdvd : unitsPerOne ∣ units x.magnitude := Nat.dvd_of_mod_eq_zero (of_decide_eq_true h)
  rw [Binary64.value, Nat.cast_div hdvd unitsPerOne_pos'.ne']

theorem ratioChars_of_isWhole {x : Binary64} (hx : x.isFinite = true) (h : x.isWhole = true) :
    x.ratioChars = x.withSign (decimal (units x.magnitude / unitsPerOne) ++ ['.', '0']) := by
  rw [ratioChars, hx, h]
  rfl

theorem magnitude_pos_of_not_isWhole {x : Binary64} (h : x.isWhole = false) : 0 < x.magnitude := by
  refine Nat.pos_of_ne_zero fun hzero => ?_
  rw [isWhole, hzero, units_zero, Nat.zero_mod] at h
  cases h

theorem ratioChars_of_not_isWhole {x : Binary64} (hx : x.isFinite = true)
    (h : x.isWhole = false) :
    x.ratioChars = x.withSign (positional (shortest .up x.magnitude)) := by
  have hfinite : x.magnitude < infinity := of_decide_eq_true hx
  have hnan : x.isNaN = false := decide_eq_false (Nat.not_lt.2 hfinite.le)
  have hne := (magnitude_pos_of_not_isWhole h).ne'
  simp [ratioChars, plainChars, hnan, hx, h, hne]

/-- **The text of a finite ratio reads back to it, with its sign.** -/
theorem readBinary64_ratioChars {x : Binary64} (h : x.isFinite = true) :
    readBinary64 x.ratioChars = .ok x := by
  have hfinite : x.magnitude < infinity := of_decide_eq_true h
  cases hwhole : x.isWhole with
  | true =>
    obtain ⟨n, hn⟩ : ∃ n, n = units x.magnitude / unitsPerOne := ⟨_, rfl⟩
    have hvalue := value_of_isWhole hwhole
    rw [← hn] at hvalue
    have hzero : (decimal n).head? = some '0' → decimal n = ['0'] := by
      intro h
      rcases Nat.eq_zero_or_pos n with rfl | hpos
      · rfl
      · exact absurd h (head?_decimal_ne hpos)
    obtain ⟨l, hneg, -, hc, hd⟩ := exists_literal_whole x.isNegative (decimal_ne_nil n)
      (fun _ => isDigit_of_mem_decimal) hzero
    rw [ratioChars_of_isWhole h hwhole, ← hn]
    refine readBinary64_of_literal hneg hc ?_
    refine (Decimal.isNearest_magnitude _).unique ?_
    rw [hd, digitsValue_decimal, value_mul_ten, ← hvalue]
    exact isNearest_value hfinite.le
  | false =>
    have hpos := magnitude_pos_of_not_isWhole hwhole
    obtain ⟨l, hneg, -, hc, hd, -⟩ :=
      exists_literal_positional x.isNegative (Decimal.coefficient_shortest_pos .up hpos hfinite)
    rw [ratioChars_of_not_isWhole h hwhole]
    refine readBinary64_of_literal hneg hc ?_
    rw [Decimal.magnitude_congr hd, Decimal.magnitude_shortest .up hfinite]

end Binary64

end BenchSweep.Number
