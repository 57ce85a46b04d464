import BenchSweep.Json.Skip
import BenchSweep.Proofs.Json.Grammar
import Mathlib.Data.List.DropRight

/-!
# Any value is skipped

Whatever value the text of a member is, skipping it leads to what follows the text. The number of
calls that this takes depends on the text alone and is at most its length, so the fuel suffices
whatever follows, and however deep the value is nested.

## Why the number of calls is named

Skipping keeps its open brackets in a list of frames, so it is one loop and not a recursion into the
values inside. Its fuel is the length of the text, and what has to be shown is that this is enough.
For that each text has a number of calls that depends on it alone. `Skips` says that the number is
not above the length and that these calls lead to what follows, inside any frames and with any fuel
that is left; so it can be put together along the grammar, by one case for each kind of value.

## Scope

Only texts of the grammar are skipped here. A string that is skipped may hold halves of surrogate
pairs, which no string that is read may hold, and a number that is skipped may be too large to be
one.

## Main definitions

* `Closed`: what may follow a value.

## Main results

* `skips_value`: skipping a value inside open frames leads to what follows it.
* `skip_value`: skipping a value leads to what follows it.
-/

namespace BenchSweep.Json

open Number (Literal Scale NoDigitFirst isDigit)

/-! ### Blanks and ends -/

theorem skipBlanks_append {b : List Char} (hb : Blanks b) (s : List Char) :
    skipBlanks (b ++ s) = skipBlanks s :=
  List.dropWhile_append_of_pos hb

theorem skipBlanks_cons {c : Char} (h : isBlank c = false) (s : List Char) :
    skipBlanks (c :: s) = c :: s := by
  rw [skipBlanks, List.dropWhile_cons_of_neg (by simp [h])]

theorem skipBlanks_starts {s : List Char} (h : Starts s) (rest : List Char) :
    skipBlanks (s ++ rest) = s ++ rest := by
  obtain ⟨c, t, rfl, hblank, -⟩ := h
  exact skipBlanks_cons hblank _

theorem skipBlanks_idem (s : List Char) : skipBlanks (skipBlanks s) = skipBlanks s :=
  List.dropWhile_idempotent isBlank s

/-- What may follow a value: nothing, a blank, a comma or a closing bracket. -/
def Closed (s : List Char) : Prop :=
  ∀ c ∈ s.head?, isBlank c = true ∨ c = ',' ∨ c = ']' ∨ c = '\x7d'

theorem closed_nil : Closed [] := by
  simp [Closed]

theorem closed_cons {c : Char} (s : List Char) (h : c = ',' ∨ c = ']' ∨ c = '\x7d') :
    Closed (c :: s) := by
  rintro c' hc
  cases hc
  exact .inr h

theorem closed_append {b s : List Char} (hb : Blanks b) (hs : Closed s) : Closed (b ++ s) := by
  cases b with
  | nil => exact hs
  | cons c b =>
    rintro c' hc
    cases hc
    exact .inl (hb _ List.mem_cons_self)

/-- A number ends before what follows it. -/
theorem Closed.ne {s : List Char} (hs : Closed s) {c : Char} (hc : c ∈ s.head?) :
    isDigit c = false ∧ c ≠ '.' ∧ c ≠ 'e' ∧ c ≠ 'E' := by
  have h := hs c hc
  simp only [isBlank, Bool.or_eq_true, decide_eq_true_eq] at h
  rcases h with (((rfl | rfl) | rfl) | rfl) | rfl | rfl | rfl <;> decide

theorem Closed.noDigitFirst {s : List Char} (hs : Closed s) : NoDigitFirst s :=
  fun _ hc => (hs.ne hc).1

/-! ### Scalars -/

theorem skipString_chars {s : List Char} (h : IsLooseChars s) (rest : List Char) :
    skipString (s ++ '"' :: rest) = .ok rest := by
  induction h with
  | nil => rfl
  | @plain c s hc _ ih =>
    obtain ⟨hquote, hslash, hcontrol⟩ := hc
    rw [List.cons_append, skipString.eq_def]
    split <;> simp_all
  | @short e c s he _ ih =>
    have hu : e ≠ 'u' := by
      rintro rfl
      cases he
    rw [List.cons_append, List.cons_append, skipString, he]
    · exact ih
    all_goals simp [hu]
  | unicode hn _ ih =>
    simp only [List.cons_append]
    rw [skipString, hn]
    exact ih

theorem noDigitFirst_scaleChars_append (scale : Option Scale) {rest : List Char}
    (hrest : Closed rest) : NoDigitFirst (Literal.scaleChars scale ++ rest) := by
  cases scale with
  | none => exact hrest.noDigitFirst
  | some s =>
    cases hc : s.capital <;> simp [NoDigitFirst, Literal.scaleChars, Scale.chars, hc] <;> decide

theorem exponentSign_append (s : Scale) (rest : List Char) :
    exponentSign (Scale.signChars s.sign ++ (s.digits ++ rest)) =
      (s.isNegative, s.digits ++ rest) := by
  obtain ⟨d, t, hd⟩ := List.exists_cons_of_ne_nil s.digits_ne_nil
  have hdigit := s.isDigit_of_mem d (hd ▸ List.mem_cons_self)
  have hplus := Number.isDigit_ne hdigit (d := '+') (by decide)
  have hminus := Number.isDigit_ne hdigit (d := '-') (by decide)
  rw [Scale.isNegative, hd]
  rcases s.sign with _ | _ | _
  · rw [Scale.signChars, List.nil_append, List.cons_append, exponentSign]
    · rfl
    · exact fun t' h => hplus (List.cons.inj h).1
    · exact fun t' h => hminus (List.cons.inj h).1
  · rfl
  · rfl

theorem skipScale_append (scale : Option Scale) {rest : List Char} (hrest : Closed rest) :
    skipScale (Literal.scaleChars scale ++ rest) = .ok rest := by
  cases scale with
  | none =>
    rw [Literal.scaleChars, List.nil_append]
    unfold skipScale
    split
    · exact absurd rfl (hrest.ne rfl).2.2.1
    · exact absurd rfl (hrest.ne rfl).2.2.2
    · rfl
  | some s =>
    have hexponent : skipExponent (Scale.signChars s.sign ++ (s.digits ++ rest)) = .ok rest := by
      obtain ⟨d, t, hd⟩ := List.exists_cons_of_ne_nil s.digits_ne_nil
      have hdigit := s.isDigit_of_mem d (hd ▸ List.mem_cons_self)
      have hafter := Number.dropWhile_isDigit_append s.isDigit_of_mem hrest.noDigitFirst
      rw [skipExponent, exponentSign_append]
      rw [hd, List.cons_append] at hafter ⊢
      rw [List.dropWhile_cons_of_pos hdigit] at hafter
      dsimp only
      rw [if_pos hdigit, afterDigits, hafter]
    rw [Literal.scaleChars, Scale.chars, List.cons_append, List.append_assoc]
    cases s.capital <;> exact hexponent

/-- No point follows the digits of a literal without a fraction. -/
theorem scaleChars_append_ne_point (scale : Option Scale) {rest : List Char} (hrest : Closed rest)
    (t : List Char) : Literal.scaleChars scale ++ rest ≠ '.' :: t := by
  intro h
  cases scale with
  | none =>
    rw [Literal.scaleChars, List.nil_append] at h
    exact (hrest.ne (h ▸ rfl)).2.1 rfl
  | some s =>
    rw [Literal.scaleChars, Scale.chars, List.cons_append] at h
    revert h
    cases s.capital <;> simp

theorem skipTail_append (l : Literal) {rest : List Char} (hrest : Closed rest) :
    skipTail (l.tail ++ rest) = .ok rest := by
  have hscale := noDigitFirst_scaleChars_append l.scale hrest
  rw [Literal.tail, List.append_assoc, Literal.fractionChars]
  split
  · rw [List.nil_append, skipTail, skipScale_append l.scale hrest]
    exact scaleChars_append_ne_point l.scale hrest
  · next hfraction =>
    obtain ⟨d, t, hd⟩ := List.exists_cons_of_ne_nil hfraction
    have hrun := Number.takeWhile_isDigit_append l.isDigit_fraction hscale
    have hafter := Number.dropWhile_isDigit_append l.isDigit_fraction hscale
    rw [List.cons_append, skipTail, digitRun, hrun, afterDigits, hafter, hd]
    exact skipScale_append l.scale hrest

theorem noDigitFirst_tail_append (l : Literal) {rest : List Char} (hrest : Closed rest) :
    NoDigitFirst (l.tail ++ rest) := by
  rw [Literal.tail, List.append_assoc, Literal.fractionChars]
  split
  · exact noDigitFirst_scaleChars_append l.scale hrest
  · simp only [NoDigitFirst, List.cons_append, List.head?_cons, Option.mem_some_iff]
    rintro c rfl
    decide

theorem skipUnsigned_append (l : Literal) {rest : List Char} (hrest : Closed rest) :
    skipUnsigned (l.whole ++ (l.tail ++ rest)) = .ok rest := by
  obtain ⟨c, t, hc⟩ := List.exists_cons_of_ne_nil l.whole_ne_nil
  have hdigit := l.isDigit_whole c (hc ▸ List.mem_cons_self)
  have hfirst := noDigitFirst_tail_append l hrest
  have hafter := Number.dropWhile_isDigit_append l.isDigit_whole hfirst
  rw [hc, List.cons_append] at hafter ⊢
  rw [List.dropWhile_cons_of_pos hdigit] at hafter
  rw [skipUnsigned]
  split
  · next hzero =>
    -- a zero in front is the whole part
    have ht : t = [] := by
      have h := l.whole_eq_zero (by rw [hc, hzero]; rfl)
      rw [hc] at h
      exact (List.cons.inj h).2
    have hrun := Number.takeWhile_isDigit_append (s := []) (by simp) hfirst
    rw [ht, digitRun, hrun, List.nil_append]
    exact skipTail_append l hrest
  · rw [afterDigits, hafter]
    exact skipTail_append l hrest

/-- A literal is skipped. -/
theorem skipScalar_literal (l : Literal) {rest : List Char} (hrest : Closed rest) :
    skipScalar (l.chars ++ rest) = .ok rest := by
  have h := skipUnsigned_append l hrest
  rw [Literal.chars, Literal.signChars, List.append_assoc, List.append_assoc]
  cases l.negative
  · obtain ⟨c, t, hc⟩ := List.exists_cons_of_ne_nil l.whole_ne_nil
    have hdigit := l.isDigit_whole c (hc ▸ List.mem_cons_self)
    have hne {d : Char} (hd : isDigit d = false) : c ≠ d := Number.isDigit_ne hdigit hd
    rw [if_neg Bool.false_ne_true, List.nil_append, hc, List.cons_append, skipScalar.eq_def]
    rw [hc, List.cons_append] at h
    split
    · next heq => exact absurd (List.cons.inj heq).1 (hne (by decide))
    · next heq => exact absurd (List.cons.inj heq).1 (hne (by decide))
    · next heq => exact absurd (List.cons.inj heq).1 (hne (by decide))
    · next heq => exact absurd (List.cons.inj heq).1 (hne (by decide))
    · next heq => exact absurd (List.cons.inj heq).1 (hne (by decide))
    · next heq =>
      cases heq
      rw [if_pos hdigit, h]
    · next heq => cases heq
  · exact h

/-! ### Lists and objects -/

/-- Skipping the text inside open frames takes a number of calls that the text alone fixes, and
leads to what follows it. -/
def Skips (s : List Char) : Prop :=
  ∃ used ≤ s.length, ∀ before rest, Blanks before → Closed rest → ∀ frames fuel,
    skipValue (fuel + used) frames (before ++ (s ++ rest)) = skipAfter fuel frames rest

/-- Blanks before a value do not matter. -/
theorem skipValue_skipBlanks (fuel : ℕ) (frames : List Frame) (s : List Char) :
    skipValue fuel frames (skipBlanks s) = skipValue fuel frames s := by
  rw [skipValue.eq_def, skipValue.eq_def fuel frames s, skipBlanks_idem]

/-- A scalar is skipped in one call. -/
theorem skips_scalar {s : List Char} (hs : Starts s) (hlist : s.head? ≠ some '[')
    (hobject : s.head? ≠ some '\x7b')
    (h : ∀ rest, Closed rest → skipScalar (s ++ rest) = .ok rest) : Skips s := by
  obtain ⟨c, t, rfl, hblank, -⟩ := hs
  refine ⟨1, Nat.le_add_left 1 _, fun before rest hbefore hrest frames fuel => ?_⟩
  rw [skipValue.eq_def, skipBlanks_append hbefore, List.cons_append, skipBlanks_cons hblank]
  have hscalar := h rest hrest
  rw [List.cons_append] at hscalar
  split
  · simp_all
  · simp_all
  · simp_all
  · simp_all
  · simp_all

/-- The series of a list, with its closing bracket. -/
theorem exists_skipValue_series {s : List Char} {items : List (List Char)}
    (h : IsSeries IsPadded s items) (hitems : ∀ item ∈ items, Skips item) :
    ∃ used ≤ s.length + 1, ∀ rest frames fuel,
      skipValue (fuel + used) (.list :: frames) (s ++ ']' :: rest) =
        skipAfter fuel frames rest := by
  induction h with
  | @one s item h =>
    obtain ⟨before, after, hbefore, hafter, rfl⟩ := h
    obtain ⟨used, hused, hskip⟩ := hitems item List.mem_cons_self
    refine ⟨used + 1, by simp; omega, fun rest frames fuel => ?_⟩
    have hclosed : Closed (after ++ ']' :: rest) :=
      closed_append hafter (closed_cons rest (.inr (.inl rfl)))
    rw [List.append_assoc, List.append_assoc, ← Nat.add_assoc, Nat.add_right_comm,
      hskip _ _ hbefore hclosed, skipAfter, skipBlanks_append hafter,
      skipBlanks_cons (by decide)]
    rfl
  | @more s rest' item items h _ ih =>
    obtain ⟨before, after, hbefore, hafter, rfl⟩ := h
    obtain ⟨used, hused, hskip⟩ := hitems item List.mem_cons_self
    obtain ⟨used', hused', hskip'⟩ :=
      ih fun item hitem => hitems item (List.mem_cons_of_mem _ hitem)
    refine ⟨used + 1 + used', by simp; omega, fun rest frames fuel => ?_⟩
    have hclosed : Closed (after ++ ',' :: (rest' ++ ']' :: rest)) :=
      closed_append hafter (closed_cons _ (.inl rfl))
    have hfuel : fuel + (used + 1 + used') = fuel + used' + 1 + used := by omega
    rw [List.append_assoc, List.append_assoc, List.append_assoc, List.cons_append, hfuel,
      hskip _ _ hbefore hclosed, skipAfter, skipBlanks_append hafter,
      skipBlanks_cons (by decide)]
    exact hskip' rest frames fuel

/-- After the blanks in front of it, a series starts as its first item does. -/
theorem exists_starts_of_series {s : List Char} {items : List (List Char)}
    (h : IsSeries IsPadded s items) (hitems : ∀ item ∈ items, Starts item) :
    ∃ before t, Blanks before ∧ s = before ++ t ∧ Starts t := by
  cases h with
  | one h =>
    obtain ⟨before, after, hbefore, -, rfl⟩ := h
    obtain ⟨c, t, rfl, hc⟩ := hitems _ List.mem_cons_self
    exact ⟨before, _, hbefore, rfl, c, _, rfl, hc⟩
  | more h =>
    obtain ⟨before, after, hbefore, -, rfl⟩ := h
    obtain ⟨c, t, rfl, hc⟩ := hitems _ List.mem_cons_self
    exact ⟨before, _, hbefore, List.append_assoc .., c, _, rfl, hc⟩

theorem skipValue_emptyList {s rest rest' : List Char} (h : skipBlanks s = '[' :: rest)
    (hrest : skipBlanks rest = ']' :: rest') (fuel : ℕ) (frames : List Frame) :
    skipValue (fuel + 1) frames s = skipAfter fuel frames rest' := by
  rw [skipValue.eq_def, h]
  simp only [hrest]

theorem skipValue_list {s rest t : List Char} {c : Char} (h : skipBlanks s = '[' :: rest)
    (hrest : skipBlanks rest = c :: t) (hc : c ≠ ']') (fuel : ℕ) (frames : List Frame) :
    skipValue (fuel + 1) frames s = skipValue fuel (.list :: frames) rest := by
  rw [skipValue.eq_def, h, ← skipValue_skipBlanks _ _ rest]
  simp only [hrest]
  split
  · next heq => cases heq
  · next heq => exact absurd (List.cons.inj heq).1 hc
  · rfl

theorem skips_list {s : List Char} {items : List (List Char)} (h : IsList s items)
    (hitems : ∀ item ∈ items, Skips item ∧ Starts item) : Skips s := by
  obtain ⟨body, rfl, hbody⟩ := h
  have hopen {before : List Char} (hbefore : Blanks before) (rest : List Char) :
      skipBlanks (before ++ ('[' :: (body ++ [']']) ++ rest)) = '[' :: (body ++ ']' :: rest) := by
    rw [skipBlanks_append hbefore, List.cons_append, skipBlanks_cons (by decide),
      List.append_assoc, List.singleton_append]
  cases hbody with
  | blank hblank =>
    refine ⟨1, by simp, fun before rest hbefore _ frames fuel => ?_⟩
    refine skipValue_emptyList (hopen hbefore rest) ?_ fuel frames
    rw [skipBlanks_append hblank, skipBlanks_cons (by decide)]
  | series hseries =>
    obtain ⟨used, hused, hskip⟩ :=
      exists_skipValue_series hseries fun item hitem => (hitems item hitem).1
    obtain ⟨blanks, t, hblanks, hbody, c, t', rfl, hstart, -, hclose, -⟩ :=
      exists_starts_of_series hseries fun item hitem => (hitems item hitem).2
    refine ⟨used + 1, by simp; omega, fun before rest hbefore _ frames fuel => ?_⟩
    have hnext : skipBlanks (body ++ ']' :: rest) = c :: (t' ++ ']' :: rest) := by
      rw [hbody, List.append_assoc, skipBlanks_append hblanks, List.cons_append,
        skipBlanks_cons hstart]
    rw [← Nat.add_assoc, skipValue_list (hopen hbefore rest) hnext hclose, hskip]

/-! ### Objects -/

theorem skipName_append {key name body : List Char} (hkey : IsPadded key name)
    (hname : IsLooseString name body) (rest : List Char) :
    skipName (key ++ ':' :: rest) = .ok rest := by
  obtain ⟨before, after, hbefore, hafter, rfl⟩ := hkey
  obtain ⟨rfl, hbody⟩ := hname
  rw [skipName, List.append_assoc, skipBlanks_append hbefore, List.cons_append, List.cons_append,
    skipBlanks_cons (by decide)]
  simp only [List.append_assoc, List.cons_append, List.nil_append]
  rw [skipString_chars hbody]
  simp only [bind, Except.bind, readColon]
  rw [skipBlanks_append hafter, skipBlanks_cons (by decide)]
  rfl

theorem skipName_skipBlanks (s : List Char) : skipName (skipBlanks s) = skipName s := by
  rw [skipName, skipBlanks_idem, skipName]

/-- The series of an object, with its closing brace. -/
theorem exists_skipValue_members {s : List Char} {members : List (List Char × List Char)}
    (h : IsSeries (IsMember IsLooseString) s members) (hmembers : ∀ m ∈ members, Skips m.2) :
    ∃ used ≤ s.length + 1, ∀ rest, ∃ value, skipName (s ++ '\x7d' :: rest) = .ok value ∧
      ∀ frames fuel, skipValue (fuel + used) (.object :: frames) value =
        skipAfter fuel frames rest := by
  induction h with
  | @one s m h =>
    obtain ⟨key, name, value, rfl, hkey, hname, before, after, hbefore, hafter, rfl⟩ := h
    obtain ⟨used, hused, hskip⟩ := hmembers m List.mem_cons_self
    refine ⟨used + 1, by simp; omega, fun rest => ⟨before ++ (m.2 ++ (after ++ '\x7d' :: rest)),
      ?_, fun frames fuel => ?_⟩⟩
    · simp only [List.append_assoc, List.cons_append]
      exact skipName_append hkey hname _
    have hclosed : Closed (after ++ '\x7d' :: rest) :=
      closed_append hafter (closed_cons rest (.inr (.inr rfl)))
    rw [← Nat.add_assoc, Nat.add_right_comm, hskip _ _ hbefore hclosed, skipAfter,
      skipBlanks_append hafter, skipBlanks_cons (by decide)]
    rfl
  | @more s rest' m members h _ ih =>
    obtain ⟨key, name, value, rfl, hkey, hname, before, after, hbefore, hafter, rfl⟩ := h
    obtain ⟨used, hused, hskip⟩ := hmembers m List.mem_cons_self
    obtain ⟨used', hused', hskip'⟩ := ih fun m hm => hmembers m (List.mem_cons_of_mem _ hm)
    refine ⟨used + 1 + used', by simp; omega, fun rest =>
      ⟨before ++ (m.2 ++ (after ++ ',' :: (rest' ++ '\x7d' :: rest))), ?_, fun frames fuel => ?_⟩⟩
    · simp only [List.append_assoc, List.cons_append]
      exact skipName_append hkey hname _
    obtain ⟨value', hname', hvalue'⟩ := hskip' rest
    have hclosed : Closed (after ++ ',' :: (rest' ++ '\x7d' :: rest)) :=
      closed_append hafter (closed_cons _ (.inl rfl))
    have hfuel : fuel + (used + 1 + used') = fuel + used' + 1 + used := by omega
    rw [hfuel, hskip _ _ hbefore hclosed, skipAfter, skipBlanks_append hafter,
      skipBlanks_cons (by decide)]
    simp only [hname']
    exact hvalue' frames fuel

/-- After the blanks in front of it, the series of an object starts with a quote. -/
theorem exists_quote_of_members {β : Type} {IsName : List Char → β → Prop} {s : List Char}
    {members : List (β × List Char)} (h : IsSeries (IsMember IsName) s members)
    (hnames : ∀ name b, IsName name b → name.head? = some '"') :
    ∃ before t, Blanks before ∧ s = before ++ '"' :: t := by
  have hmember {s : List Char} {m : β × List Char} (h : IsMember IsName s m) :
      ∃ before t, Blanks before ∧ s = before ++ '"' :: t := by
    obtain ⟨key, name, value, rfl, ⟨before, after, hbefore, -, rfl⟩, hname, -⟩ := h
    obtain ⟨t, rfl⟩ := List.head?_eq_some_iff.1 (hnames name _ hname)
    exact ⟨before, _, hbefore, by rw [List.append_assoc, List.cons_append, List.cons_append]⟩
  cases h with
  | one h => exact hmember h
  | more h =>
    obtain ⟨before, t, hbefore, rfl⟩ := hmember h
    exact ⟨before, _, hbefore, by rw [List.append_assoc, List.cons_append]⟩

theorem skipValue_emptyObject {s rest rest' : List Char} (h : skipBlanks s = '\x7b' :: rest)
    (hrest : skipBlanks rest = '\x7d' :: rest') (fuel : ℕ) (frames : List Frame) :
    skipValue (fuel + 1) frames s = skipAfter fuel frames rest' := by
  rw [skipValue.eq_def, h]
  simp only [hrest]

theorem skipValue_object {s rest t value : List Char} (h : skipBlanks s = '\x7b' :: rest)
    (hrest : skipBlanks rest = '"' :: t) (hname : skipName rest = .ok value) (fuel : ℕ)
    (frames : List Frame) :
    skipValue (fuel + 1) frames s = skipValue fuel (.object :: frames) value := by
  rw [← skipName_skipBlanks, hrest] at hname
  rw [skipValue.eq_def, h]
  simp only [hrest]
  split
  · next heq => cases heq
  · next heq => exact absurd (List.cons.inj heq).1 (by decide)
  · rw [hname]

theorem skips_object {s : List Char} {members : List (List Char × List Char)}
    (h : IsObject IsLooseString s members) (hmembers : ∀ m ∈ members, Skips m.2) : Skips s := by
  obtain ⟨body, rfl, hbody⟩ := h
  have hopen {before : List Char} (hbefore : Blanks before) (rest : List Char) :
      skipBlanks (before ++ ('\x7b' :: (body ++ ['\x7d']) ++ rest)) =
        '\x7b' :: (body ++ '\x7d' :: rest) := by
    rw [skipBlanks_append hbefore, List.cons_append, skipBlanks_cons (by decide),
      List.append_assoc, List.singleton_append]
  cases hbody with
  | blank hblank =>
    refine ⟨1, by simp, fun before rest hbefore _ frames fuel => ?_⟩
    refine skipValue_emptyObject (hopen hbefore rest) ?_ fuel frames
    rw [skipBlanks_append hblank, skipBlanks_cons (by decide)]
  | series hseries =>
    obtain ⟨used, hused, hskip⟩ := exists_skipValue_members hseries hmembers
    obtain ⟨blanks, t, hblanks, hbody⟩ :=
      exists_quote_of_members hseries fun name body hname => by rw [hname.1]; rfl
    refine ⟨used + 1, by simp; omega, fun before rest hbefore _ frames fuel => ?_⟩
    obtain ⟨value, hname, hvalue⟩ := hskip rest
    have hnext : skipBlanks (body ++ '\x7d' :: rest) = '"' :: (t ++ '\x7d' :: rest) := by
      rw [hbody, List.append_assoc, skipBlanks_append hblanks, List.cons_append,
        skipBlanks_cons (by decide)]
    rw [← Nat.add_assoc, skipValue_object (hopen hbefore rest) hnext hname, hvalue]

/-! ### Values -/

/-- **Any value is skipped.** -/
theorem skips_value {s : List Char} (h : IsValue s) : Skips s := by
  have hstarts := h.starts
  induction h with
  | null => exact skips_scalar hstarts (by decide) (by decide) fun _ _ => rfl
  | true => exact skips_scalar hstarts (by decide) (by decide) fun _ _ => rfl
  | false => exact skips_scalar hstarts (by decide) (by decide) fun _ _ => rfl
  | number l =>
    obtain ⟨c, t, hc, hfirst⟩ := exists_literal_head l
    have hne {d : Char} (hd : isDigit d = false) (hminus : '-' ≠ d) : l.chars.head? ≠ some d := by
      rw [hc, List.head?_cons, Ne, Option.some.injEq]
      rcases hfirst with rfl | hdigit
      · exact hminus
      · exact Number.isDigit_ne hdigit hd
    exact skips_scalar hstarts (hne (by decide) (by decide)) (hne (by decide) (by decide))
      fun rest hrest => skipScalar_literal l hrest
  | string h =>
    obtain ⟨rfl, hbody⟩ := h
    refine skips_scalar hstarts (by simp) (by simp) fun rest _ => ?_
    rw [List.cons_append, skipScalar, List.append_assoc, List.singleton_append,
      skipString_chars hbody]
  | list h hitems ih => exact skips_list h fun item hitem =>
      ⟨ih item hitem (hitems item hitem).starts, (hitems item hitem).starts⟩
  | object h hmembers ih => exact skips_object h fun m hm => ih m hm (hmembers m hm).starts

/-- **Skipping a value leads to what follows it.** -/
theorem skip_value {s : List Char} (h : IsValue s) {before rest : List Char}
    (hbefore : Blanks before) (hrest : Closed rest) : skip (before ++ (s ++ rest)) = .ok rest := by
  obtain ⟨used, hused, hskip⟩ := skips_value h
  obtain ⟨fuel, hfuel⟩ : ∃ fuel, (before ++ (s ++ rest)).length + 1 = fuel + used :=
    ⟨(before ++ (s ++ rest)).length + 1 - used, by simp; omega⟩
  rw [skip, hfuel, hskip before rest hbefore hrest, skipAfter]

end BenchSweep.Json
