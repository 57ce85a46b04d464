import BenchSweep.Json.Scalar
import BenchSweep.Json.Writer
import BenchSweep.Proofs.Number.Literal

/-!
# The grammar of JSON texts

The texts of JSON values, said without the readers. Lists and objects are told apart from what they
hold: `IsList` and `IsObject` cut a text into the texts of its items or members, with blanks
anywhere between the tokens, and say nothing of those. So the texts of one type, and those of any
value, are made by asking something of the items.

The name of a member and a string that is read spell a string of characters. A string that is only
skipped may also hold halves of surrogate pairs, which spell none.

## Why items are texts

A list is cut into the texts of its items before anything is said of these. The alternative, an
inductive definition of all values with lists inside, would make each reader of one type deal with
all the others. As it is, `IsListOf` asks the same of every item, the readers of records ask
something else of every member, and `IsValue` is the only recursive definition.

## Scope

Blanks are the four of JSON, and a number is a `Literal`, without a plus sign and without needless
zeros in front. Texts that are not in the grammar are not described, nor is what is reported of
them.

## Main definitions

* `IsString`: a text spells a string.
* `IsList`, `IsObject`: a text is a list or an object with certain items or members.
* `IsListOf`, `IsOption`: lists and optional values of one type.
* `IsValue`: a text is a value.

## Main results

* `IsValue.starts`: how a value starts.
-/

namespace BenchSweep.Json

open Number (Literal isDigit)

/-- Blanks between tokens. -/
def Blanks (s : List Char) : Prop :=
  ∀ c ∈ s, isBlank c = true

/-- A text between blanks. -/
def IsPadded (s t : List Char) : Prop :=
  ∃ before after, Blanks before ∧ Blanks after ∧ s = before ++ (t ++ after)

/-! ### Strings -/

/-- A character that may stand in a string as it is. -/
def IsPlainChar (c : Char) : Prop :=
  c ≠ '"' ∧ c ≠ '\\' ∧ isControl c = false

instance : DecidablePred IsPlainChar :=
  fun c => inferInstanceAs (Decidable (c ≠ '"' ∧ c ≠ '\\' ∧ isControl c = false))

/-- The characters between quotes spell a text. A character stands for itself, or it is written as
an escape of one letter, as the escape of its code point, or as the escapes of its surrogate
pair. -/
inductive IsChars : List Char → List Char → Prop
  | nil : IsChars [] []
  | plain {c : Char} {s t : List Char} (hc : IsPlainChar c) (h : IsChars s t) :
      IsChars (c :: s) (c :: t)
  | short {e c : Char} {s t : List Char} (he : shortEscape? e = some c) (h : IsChars s t) :
      IsChars ('\\' :: e :: s) (c :: t)
  | unicode {a b c d : Char} {n : ℕ} {s t : List Char} (hn : hexValue? a b c d = some n)
      (hleading : isLeading n = false) (htrailing : isTrailing n = false) (h : IsChars s t) :
      IsChars ('\\' :: 'u' :: a :: b :: c :: d :: s) (Char.ofNat n :: t)
  | pair {a b c d a' b' c' d' : Char} {m n : ℕ} {s t : List Char}
      (hm : hexValue? a b c d = some m) (hleading : isLeading m = true)
      (hn : hexValue? a' b' c' d' = some n) (htrailing : isTrailing n = true) (h : IsChars s t) :
      IsChars ('\\' :: 'u' :: a :: b :: c :: d :: '\\' :: 'u' :: a' :: b' :: c' :: d' :: s)
        (Char.ofNat (pairValue m n) :: t)

/-- A text in quotes spells a string. -/
def IsString (s : List Char) (value : String) : Prop :=
  ∃ body, s = '"' :: (body ++ ['"']) ∧ IsChars body value.toList

/-- Characters between quotes that may hold halves of surrogate pairs. -/
inductive IsLooseChars : List Char → Prop
  | nil : IsLooseChars []
  | plain {c : Char} {s : List Char} (hc : IsPlainChar c) (h : IsLooseChars s) :
      IsLooseChars (c :: s)
  | short {e c : Char} {s : List Char} (he : shortEscape? e = some c) (h : IsLooseChars s) :
      IsLooseChars ('\\' :: e :: s)
  | unicode {a b c d : Char} {n : ℕ} {s : List Char} (hn : hexValue? a b c d = some n)
      (h : IsLooseChars s) : IsLooseChars ('\\' :: 'u' :: a :: b :: c :: d :: s)

/-- A text in quotes with certain characters between them, which may hold halves of surrogate
pairs. -/
def IsLooseString (s body : List Char) : Prop :=
  s = '"' :: (body ++ ['"']) ∧ IsLooseChars body

/-! ### Lists and objects -/

section Structure

variable {β : Type}

/-- One item or more, separated by commas. -/
inductive IsSeries (IsItem : List Char → β → Prop) : List Char → List β → Prop
  | one {s : List Char} {x : β} (h : IsItem s x) : IsSeries IsItem s [x]
  | more {s rest : List Char} {x : β} {xs : List β} (h : IsItem s x)
      (hrest : IsSeries IsItem rest xs) : IsSeries IsItem (s ++ ',' :: rest) (x :: xs)

/-- What stands between brackets: blanks, or items separated by commas. -/
inductive IsBody (IsItem : List Char → β → Prop) : List Char → List β → Prop
  | blank {s : List Char} (h : Blanks s) : IsBody IsItem s []
  | series {s : List Char} {xs : List β} (h : IsSeries IsItem s xs) : IsBody IsItem s xs

/-- A list with the given items. -/
def IsList (s : List Char) (items : List (List Char)) : Prop :=
  ∃ body, s = '[' :: (body ++ [']']) ∧ IsBody IsPadded body items

/-- A member of an object: a name, a colon and a value. -/
def IsMember (IsName : List Char → β → Prop) (s : List Char) (m : β × List Char) : Prop :=
  ∃ key name value, s = key ++ ':' :: value ∧ IsPadded key name ∧ IsName name m.1 ∧
    IsPadded value m.2

/-- An object with the given members: names and texts of values. -/
def IsObject (IsName : List Char → β → Prop) (s : List Char) (members : List (β × List Char)) :
    Prop :=
  ∃ body, s = '\x7b' :: (body ++ ['\x7d']) ∧ IsBody (IsMember IsName) body members

/-- A list of values of one type. -/
def IsListOf (IsItem : List Char → β → Prop) (s : List Char) (values : List β) : Prop :=
  ∃ items, IsList s items ∧ List.Forall₂ IsItem items values

/-- A value of one type, or `null` for its absence. -/
def IsOption (IsItem : List Char → β → Prop) (s : List Char) : Option β → Prop
  | none => s = ['n', 'u', 'l', 'l']
  | some value => IsItem s value

end Structure

/-! ### Values -/

/-- The text of any value. -/
inductive IsValue : List Char → Prop
  | null : IsValue ['n', 'u', 'l', 'l']
  | true : IsValue ['t', 'r', 'u', 'e']
  | false : IsValue ['f', 'a', 'l', 's', 'e']
  | number (l : Literal) : IsValue l.chars
  | string {s body : List Char} (h : IsLooseString s body) : IsValue s
  | list {s : List Char} {items : List (List Char)} (h : IsList s items)
      (hitems : ∀ item ∈ items, IsValue item) : IsValue s
  | object {s : List Char} {members : List (List Char × List Char)}
      (h : IsObject IsLooseString s members) (hmembers : ∀ m ∈ members, IsValue m.2) : IsValue s

/-- A text whose first character can start a value. -/
def Starts (s : List Char) : Prop :=
  ∃ c t, s = c :: t ∧ isBlank c = false ∧ c ≠ ',' ∧ c ≠ ']' ∧ c ≠ '\x7d'

theorem starts_of_mem {c : Char} (t : List Char) (h : c ∈ ['n', 't', 'f', '"', '-', '[', '\x7b']) :
    Starts (c :: t) := by
  refine ⟨c, t, rfl, ?_⟩
  simp only [List.mem_cons, List.not_mem_nil, or_false] at h
  rcases h with rfl | rfl | rfl | rfl | rfl | rfl | rfl <;> decide

theorem starts_of_isDigit {c : Char} (t : List Char) (h : isDigit c = true) : Starts (c :: t) :=
  ⟨c, t, rfl, Bool.eq_false_iff.2 fun hblank => by
    simp only [isBlank, Bool.or_eq_true, decide_eq_true_eq] at hblank
    obtain ((rfl | rfl) | rfl) | rfl := hblank <;> revert h <;> decide,
    Number.isDigit_ne h (by decide), Number.isDigit_ne h (by decide),
    Number.isDigit_ne h (by decide)⟩

/-- A literal starts with a minus sign or a digit. -/
theorem exists_literal_head (l : Literal) :
    ∃ c t, l.chars = c :: t ∧ (c = '-' ∨ isDigit c = true) := by
  obtain ⟨c, t, hc⟩ := List.exists_cons_of_ne_nil l.whole_ne_nil
  have hdigit := l.isDigit_whole c (hc ▸ List.mem_cons_self)
  rw [Literal.chars, Literal.signChars, hc]
  cases l.negative
  · exact ⟨c, _, rfl, .inr hdigit⟩
  · exact ⟨'-', _, rfl, .inl rfl⟩

theorem starts_literal (l : Literal) : Starts l.chars := by
  obtain ⟨c, t, hc, rfl | hdigit⟩ := exists_literal_head l
  · exact hc ▸ starts_of_mem t (by decide)
  · exact hc ▸ starts_of_isDigit t hdigit

theorem IsValue.starts {s : List Char} (h : IsValue s) : Starts s := by
  cases h with
  | null => exact starts_of_mem _ (by decide)
  | true => exact starts_of_mem _ (by decide)
  | false => exact starts_of_mem _ (by decide)
  | number l => exact starts_literal l
  | string h => exact h.1 ▸ starts_of_mem _ (by decide)
  | list h => exact h.elim fun _ h => h.1 ▸ starts_of_mem _ (by decide)
  | object h => exact h.elim fun _ h => h.1 ▸ starts_of_mem _ (by decide)

end BenchSweep.Json
