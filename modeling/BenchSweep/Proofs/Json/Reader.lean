import BenchSweep.Json.Reader
import BenchSweep.Proofs.Json.Scale

/-!
# Readers take the texts of their values

A reader takes a text if it reads the value that the text stands for, whatever blanks are in front
and whatever follows. The readers of scalars take the texts of their type; the readers of options
and lists do so if the readers of their items do.

## Why what follows has to be closed

A reader does not know where the text of its value ends. That of a number takes digits as long as
they come, so it takes the digits of its value only if no digit follows. In a text of the grammar a
blank, a comma or a bracket follows, or nothing, and `Closed` says so. It is asked of what follows
any value, so that the readers of lists and records need no case for numbers.

## Scope

Only what is read is said here, and not what is refused. A reader that takes a value from a text
takes no other value from it (`Takes.unique`), since the result is that of a function.

## Main definitions

* `Takes`: a reader takes a value from a text.
* `IsCount`, `IsPort`, `IsFloat`: the texts of numbers of one type.

## Main results

* `takes_readCount`, `takes_readPort`, `takes_readFloat`, `takes_readStringAs`: scalars are taken.
* `takes_readOption`, `takes_readListOf`: optional values and lists are taken.
-/

namespace BenchSweep.Json

open Number (Binary64 Literal decimal digitsValue isDigit twoTo)
open Number.Binary64 (infinity isNearest_mulMagnitude isNearest_nearest isNearest_value)

/-- A reader takes a value from a text, whatever blanks are in front and whatever follows. -/
def Takes {α : Type} (read : Reader α) (s : List Char) (value : α) : Prop :=
  ∀ before rest, Blanks before → Closed rest → read (before ++ (s ++ rest)) = .ok (value, rest)

/-! ### Numbers -/

theorem takes_readScalar {α : Type} (expected : String) (convert : Scalar → Except Reason α)
    {l : Literal} {v : Scalar} {x : α} (hv : scalar? l = some v) (hx : convert v = .ok x) :
    Takes (readScalar expected convert) l.chars x := by
  intro before rest hbefore hrest
  obtain ⟨c, t, hc, hfirst⟩ := exists_literal_head l
  have hread := readNumber_literal hv hrest
  have hskip : skipBlanks (l.chars ++ rest) = l.chars ++ rest :=
    skipBlanks_starts (starts_literal l) _
  rw [hc, List.cons_append] at hread hskip
  rw [readScalar, skipBlanks_append hbefore, hc, List.cons_append, hskip]
  dsimp only
  rw [if_pos hfirst, hread]
  dsimp only
  rw [hx]

/-- A whole number as a literal. -/
def wholeLiteral (n : ℕ) : Literal where
  negative := false
  whole := decimal n
  whole_ne_nil := Number.decimal_ne_nil n
  isDigit_whole _ := Number.isDigit_of_mem_decimal
  whole_eq_zero h := by
    rcases Nat.eq_zero_or_pos n with rfl | hpos
    · rfl
    · exact absurd h (Number.head?_decimal_ne hpos)

theorem chars_wholeLiteral (n : ℕ) : (wholeLiteral n).chars = decimal n := by
  simp [wholeLiteral, Literal.chars, Literal.signChars, Literal.tail, Literal.fractionChars,
    Literal.scaleChars]

theorem scalar?_wholeLiteral {n : ℕ} (h : n < twoTo 64) :
    scalar? (wholeLiteral n) = some (.natural n) := by
  have hvalue : digitsValue 0 (wholeLiteral n).whole = n := Number.digitsValue_decimal n
  rw [scalar?, hvalue, if_pos ⟨rfl, h⟩]
  rfl

theorem takes_readBelow {α : Type} (expected : String) {bound n : ℕ} (hn : n < bound)
    (hbound : bound ≤ twoTo 64) (f : ℕ → α) :
    Takes (readScalar expected fun v => (toBelow expected bound v).map f) (decimal n) (f n) := by
  have hconvert : (toBelow expected bound (.natural n)).map f = .ok (f n) := by
    rw [toBelow, if_pos hn]
    rfl
  have h := takes_readScalar expected (fun v => (toBelow expected bound v).map f)
    (scalar?_wholeLiteral (hn.trans_le hbound)) hconvert
  rwa [chars_wholeLiteral] at h

/-- The text of a count: its digits. -/
def IsCount (s : List Char) (n : UInt64) : Prop :=
  s = decimal n.toNat

/-- The text of a port number: its digits. -/
def IsPort (s : List Char) (n : UInt16) : Prop :=
  s = decimal n.toNat

theorem takes_count (expected : String) {s : List Char} {n : UInt64} (h : IsCount s n) :
    Takes (readScalar expected fun v => (toBelow expected (twoTo 64) v).map UInt64.ofNat) s n := by
  have htakes := takes_readBelow expected (show n.toNat < twoTo 64 from n.toNat_lt) le_rfl
    UInt64.ofNat
  rw [UInt64.ofNat_toNat] at htakes
  exact h ▸ htakes

theorem takes_readCount {s : List Char} {n : UInt64} (h : IsCount s n) : Takes readCount s n :=
  takes_count "usize" h

theorem takes_readSeconds {s : List Char} {n : UInt64} (h : IsCount s n) : Takes readSeconds s n :=
  takes_count "u64" h

theorem takes_readPort {s : List Char} {n : UInt16} (h : IsPort s n) : Takes readPort s n := by
  have htakes := takes_readBelow "u16" (show n.toNat < twoTo 16 from n.toNat_lt)
    (Number.twoTo_le_twoTo (by decide)) UInt16.ofNat
  rw [UInt16.ofNat_toNat] at htakes
  exact h ▸ htakes

theorem starts_decimal (n : ℕ) : Starts (decimal n) :=
  chars_wholeLiteral n ▸ starts_literal _

/-- A whole number is turned into the number nearest to it. -/
theorem toFloat_wholeScalar (negative : Bool) (n : ℕ) :
    toFloat (wholeScalar negative n) = .ok (.ofMagnitude negative (Binary64.nearest n 1)) := by
  delta wholeScalar
  cases negative
  · rfl
  · rw [if_neg (by decide)]
    split
    · rfl
    · rfl

/-- A literal whose number is finite is read as something that is turned into this number. -/
theorem exists_toFloat {l : Literal} {x : Binary64} (h : float? l = some x) :
    ∃ v, scalar? l = some v ∧ toFloat v = .ok x := by
  delta scalar?
  split
  · next hwhole =>
    obtain ⟨htail, hlt⟩ := hwhole
    refine ⟨_, rfl, ?_⟩
    have hfraction : l.fraction = [] := by
      by_contra hne
      rw [Literal.tail, Literal.fractionChars, if_neg hne, List.cons_append] at htail
      cases htail
    have hscale : l.scale = none := by
      rw [Literal.tail, List.append_eq_nil_iff] at htail
      cases hs : l.scale with
      | none => rfl
      | some s =>
        rw [hs] at htail
        cases htail.2
    have hkept : kept l = (digitsValue 0 l.whole, 0) := by
      simp [kept, readDigits_of_lt l.isDigit_whole hlt, hfraction, readDigits]
    have hzero : wrapCount 0 = 0 := rfl
    obtain ⟨-, hscaled⟩ := scaled_of_float? h
    rw [hkept, hscale, scaled] at hscaled
    dsimp only at hscaled
    rw [hzero, scale_zero] at hscaled
    split at hscaled
    · cases hscaled
      exact toFloat_wholeScalar _ _
    · cases hscaled
  · rw [h]
    exact ⟨_, rfl, rfl⟩

/-- The text of a float: a literal whose number is finite. -/
def IsFloat (s : List Char) (x : Binary64) : Prop :=
  ∃ l : Literal, s = l.chars ∧ float? l = some x

theorem takes_readFloat {s : List Char} {x : Binary64} (h : IsFloat s x) : Takes readFloat s x := by
  obtain ⟨l, rfl, hx⟩ := h
  obtain ⟨v, hv, hconvert⟩ := exists_toFloat hx
  exact takes_readScalar "f64" toFloat hv hconvert

/-- A text has one number at most: what is read of it. -/
theorem IsFloat.unique {s : List Char} {x y : Binary64} (hx : IsFloat s x) (hy : IsFloat s y) :
    x = y := by
  have h := takes_readFloat hx [] [] (by simp [Blanks]) closed_nil
  rw [takes_readFloat hy [] [] (by simp [Blanks]) closed_nil] at h
  exact (congrArg Prod.fst (Except.ok.inj h)).symm

/-! ### Strings and options -/

theorem takes_readStringAs (expected : String) {s : List Char} {value : String}
    (h : IsString s value) : Takes (readStringAs expected) s value := by
  obtain ⟨body, rfl, hbody⟩ := h
  intro before rest hbefore _
  rw [readStringAs, skipBlanks_append hbefore, List.cons_append, skipBlanks_cons (by decide),
    List.append_assoc, List.singleton_append]
  change readString (body ++ '"' :: rest) = _
  rw [readString_chars hbody, String.ofList_toList]

/-- A reader of optional values takes the texts of its reader, unless those could start `null`. -/
theorem takes_readOption {α : Type} {read : Reader α} {IsItem : List Char → α → Prop}
    (h : ∀ s value, IsItem s value → Takes read s value ∧ Starts s ∧ s.head? ≠ some 'n')
    {s : List Char} {value : Option α} (hs : IsOption IsItem s value) :
    Takes (readOption read) s value := by
  intro before rest hbefore hrest
  cases value with
  | none =>
    cases hs
    rw [readOption, skipBlanks_append hbefore, List.cons_append, skipBlanks_cons (by decide)]
    rfl
  | some value =>
    obtain ⟨htakes, hstarts, hhead⟩ := h s value hs
    have hread := htakes [] rest (by simp [Blanks]) hrest
    rw [List.nil_append] at hread
    rw [readOption, skipBlanks_append hbefore, skipBlanks_starts hstarts]
    split
    · next t ht =>
      obtain ⟨c, t', rfl, -⟩ := hstarts
      rw [List.cons_append] at ht
      exact absurd (congrArg some (List.cons.inj ht).1) hhead
    · rw [hread]
      rfl

/-! ### Lists -/

section Lists

variable {α : Type}

theorem nextElement_first {s t : List Char} {c : Char} (h : skipBlanks s = c :: t)
    (hcomma : c ≠ ',') (hclose : c ≠ ']') : nextElement true s = .ok (true, c :: t) := by
  rw [nextElement, h]
  split
  · next heq => cases heq
  · next heq => exact absurd (List.cons.inj heq).1 hclose
  · next heq => exact absurd (List.cons.inj heq).1 hcomma
  · rfl

theorem nextElement_comma {s rest t : List Char} {c : Char} (h : skipBlanks s = ',' :: rest)
    (hrest : skipBlanks rest = c :: t) (hclose : c ≠ ']') :
    nextElement false s = .ok (true, c :: t) := by
  rw [nextElement, h]
  split
  · next heq => cases heq
  · next heq => exact absurd (List.cons.inj heq).1 (by decide)
  · next heq =>
    rw [if_neg Bool.false_ne_true, ← (List.cons.inj heq).2, hrest]
    split
    · next heq => cases heq
    · next heq => exact absurd (List.cons.inj heq).1 hclose
    · rfl
  · next hother => exact absurd rfl (hother rest)

theorem nextElement_close {s rest : List Char} (h : skipBlanks s = ']' :: rest) (first : Bool) :
    nextElement first s = .ok (false, ']' :: rest) := by
  rw [nextElement, h]
  rfl

/-- An element that is reached is read. -/
theorem readElements_of_takes {read : Reader α} {s s₀ item next : List Char} {value : α}
    (hpadded : IsPadded s item) (htakes : Takes read item value) (hstarts : Starts item)
    {first : Bool} (hnext : nextElement first s₀ = .ok (true, skipBlanks (s ++ next)))
    (hclosed : Closed next) : ∃ after, Blanks after ∧ ∀ fuel,
      readElements read (fuel + 1) first s₀ =
        (readElements read fuel false (after ++ next)).map fun (values, rest) =>
          (value :: values, rest) := by
  obtain ⟨before, after, hbefore, hafter, rfl⟩ := hpadded
  refine ⟨after, hafter, fun fuel => ?_⟩
  have hread := htakes [] (after ++ next) (by simp [Blanks]) (closed_append hafter hclosed)
  rw [List.append_assoc, skipBlanks_append hbefore, List.append_assoc, skipBlanks_starts hstarts]
    at hnext
  rw [readElements, hnext]
  dsimp only
  rw [List.nil_append] at hread
  rw [hread]

/-- The series of a list is read up to the closing bracket, once its first element is reached. -/
theorem readElements_series {read : Reader α} {s rest : List Char} {items : List (List Char)}
    {values : List α} (h : IsSeries IsPadded s items) (hstarts : ∀ item ∈ items, Starts item)
    (hitems : List.Forall₂ (Takes read) items values) {fuel : ℕ} (hfuel : items.length < fuel)
    {first : Bool} {s₀ : List Char}
    (hnext : nextElement first s₀ = .ok (true, skipBlanks (s ++ ']' :: rest))) :
    readElements read fuel first s₀ = .ok (values, ']' :: rest) := by
  induction h generalizing values fuel first s₀ with
  | @one s item hpadded =>
    obtain ⟨value, _, htakes, hnil, rfl⟩ := List.forall₂_cons_left_iff.1 hitems
    obtain rfl := List.forall₂_nil_left_iff.1 hnil
    obtain ⟨after, hafter, hread⟩ := readElements_of_takes hpadded htakes
      (hstarts item List.mem_cons_self) hnext (closed_cons rest (.inr (.inl rfl)))
    have hend : skipBlanks (after ++ ']' :: rest) = ']' :: rest := by
      rw [skipBlanks_append hafter, skipBlanks_cons (by decide)]
    obtain ⟨fuel, rfl⟩ : ∃ n, fuel = n + 1 + 1 :=
      ⟨fuel - 2, by rw [List.length_singleton] at hfuel; omega⟩
    rw [hread, readElements, nextElement_close hend]
    rfl
  | @more s rest' item items hpadded hseries ih =>
    obtain ⟨value, values, htakes, hlater, rfl⟩ := List.forall₂_cons_left_iff.1 hitems
    obtain ⟨hitem, hstarts⟩ := List.forall_mem_cons.1 hstarts
    rw [List.append_assoc, List.cons_append] at hnext
    obtain ⟨after, hafter, hread⟩ := readElements_of_takes hpadded htakes hitem hnext
      (closed_cons _ (.inl rfl))
    obtain ⟨fuel, rfl⟩ : ∃ n, fuel = n + 1 := ⟨fuel - 1, by omega⟩
    have hcomma : skipBlanks (after ++ ',' :: (rest' ++ ']' :: rest)) =
        ',' :: (rest' ++ ']' :: rest) := by
      rw [skipBlanks_append hafter, skipBlanks_cons (by decide)]
    obtain ⟨blanks, t, hblanks, hrest', c, t', rfl, hstart, -, hclose, -⟩ :=
      exists_starts_of_series hseries hstarts
    have hnext' : skipBlanks (rest' ++ ']' :: rest) = c :: (t' ++ ']' :: rest) := by
      rw [hrest', List.append_assoc, skipBlanks_append hblanks, List.cons_append,
        skipBlanks_cons hstart]
    rw [hread, ih hstarts hlater (by simpa using hfuel)
      ((nextElement_comma hcomma hnext' hclose).trans (hnext' ▸ rfl))]
    rfl

/-- The elements of a list are fewer than its characters. -/
theorem length_le_of_series {β : Type} {IsItem : List Char → β → Prop} {s : List Char} {xs : List β}
    (h : IsSeries IsItem s xs) : xs.length ≤ s.length + 1 := by
  induction h with
  | one => simp
  | more _ _ ih => simp; omega

theorem closeList_cons (rest : List Char) : closeList (']' :: rest) = .ok rest := by
  rw [closeList, skipBlanks_cons (by decide)]
  rfl

/-- A reader of lists takes the lists whose items its reader takes. -/
theorem takes_readListOf_of_takes {read : Reader α} {s : List Char} {items : List (List Char)}
    {values : List α} (h : IsList s items) (hstarts : ∀ item ∈ items, Starts item)
    (hitems : List.Forall₂ (Takes read) items values) : Takes (readListOf read) s values := by
  obtain ⟨body, rfl, hbody⟩ := h
  intro before rest hbefore hrest
  have hread : readElements read ((body ++ ']' :: rest).length + 1) true (body ++ ']' :: rest) =
      .ok (values, ']' :: rest) := by
    cases hbody with
    | blank hblank =>
      obtain rfl := List.forall₂_nil_left_iff.1 hitems
      have hend : skipBlanks (body ++ ']' :: rest) = ']' :: rest := by
        rw [skipBlanks_append hblank, skipBlanks_cons (by decide)]
      rw [readElements, nextElement_close hend]
    | series hseries =>
      obtain ⟨blanks, t, hblanks, hbody, c, t', rfl, hstart, hcomma, hclose, -⟩ :=
        exists_starts_of_series hseries hstarts
      have hnext : skipBlanks (body ++ ']' :: rest) = c :: (t' ++ ']' :: rest) := by
        rw [hbody, List.append_assoc, skipBlanks_append hblanks, List.cons_append,
          skipBlanks_cons hstart]
      have hlength := length_le_of_series hseries
      refine readElements_series hseries hstarts hitems (by simp; omega) ?_
      rw [nextElement_first hnext hcomma hclose, hnext]
  rw [readListOf, skipBlanks_append hbefore, List.cons_append, skipBlanks_cons (by decide),
    List.append_assoc, List.singleton_append]
  change closeWith closeList (readElements read ((body ++ ']' :: rest).length + 1) true
    (body ++ ']' :: rest)) = _
  rw [hread, closeWith, closeList_cons]
  rfl

/-- **A reader of lists takes the texts of lists of its type.** -/
theorem takes_readListOf {read : Reader α} {IsItem : List Char → α → Prop}
    (h : ∀ s value, IsItem s value → Takes read s value ∧ Starts s) {s : List Char}
    {values : List α} (hs : IsListOf IsItem s values) : Takes (readListOf read) s values := by
  obtain ⟨items, hlist, hitems⟩ := hs
  have hboth : List.Forall₂ (fun item value => Starts item ∧ Takes read item value) items values :=
    hitems.imp fun item value hitem => (h item value hitem).symm
  obtain ⟨hstarts, htakes⟩ := (List.forall₂_and_left ..).1 hboth
  exact takes_readListOf_of_takes hlist hstarts htakes

end Lists

end BenchSweep.Json
