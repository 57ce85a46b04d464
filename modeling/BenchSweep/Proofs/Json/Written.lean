import BenchSweep.Proofs.Json.Grammar

/-!
# Written texts are texts of their values

What is written for strings, lists, optional values and objects are texts of the grammar, without
blanks: control characters, quotes and backslashes are escaped, and nothing else is.

## Scope

The writer makes no blanks and gives the members of a record in a fixed order, so its texts are a
small part of the grammar. That they are in it is all that is needed: whoever reads the grammar
reads them. A control character is written as an escape, and each of the short escapes is used where
there is one.

## Main results

* `isString_writeString`: a written string spells the string.
* `isListOf_writeList`, `isOption_writeOption`: written lists and optional values.
* `isObject_writeObject`: a written object has the members that it is written for.
-/

namespace BenchSweep.Json

theorem blanks_nil : Blanks [] :=
  fun _ h => absurd h List.not_mem_nil

theorem isPadded_self (s : List Char) : IsPadded s s :=
  ⟨[], [], blanks_nil, blanks_nil, (List.append_nil s).symm⟩

/-! ### Strings -/

theorem hexValue?_digitChar {n : ℕ} (hn : n < 0x20) :
    hexValue? '0' '0' (Nat.digitChar (n / 16)) (Nat.digitChar (n % 16)) = some n := by
  revert n
  decide

/-- A written character is a character of a string, in front of others. -/
theorem isChars_writeChar (c : Char) {s t : List Char} (h : IsChars s t) :
    IsChars (writeChar c ++ s) (c :: t) := by
  unfold writeChar
  split
  · exact .short rfl h
  · exact .short rfl h
  · exact .short rfl h
  · exact .short rfl h
  · exact .short rfl h
  · exact .short rfl h
  · exact .short rfl h
  · next hquote hslash _ _ _ _ _ =>
    split
    · next hcontrol =>
      have hunicode := IsChars.unicode (hexValue?_digitChar hcontrol)
        (Bool.eq_false_iff.2 fun hleading => by
          simp only [isLeading, Bool.and_eq_true, decide_eq_true_eq] at hleading
          omega)
        (Bool.eq_false_iff.2 fun htrailing => by
          simp only [isTrailing, Bool.and_eq_true, decide_eq_true_eq] at htrailing
          omega) h
      rwa [Char.ofNat_toNat] at hunicode
    · next hcontrol => exact .plain ⟨hquote, hslash, decide_eq_false hcontrol⟩ h

theorem isChars_flatMap_writeChar (s : List Char) : IsChars (s.flatMap writeChar) s := by
  induction s with
  | nil => exact .nil
  | cons c s ih => exact isChars_writeChar c ih

/-- **A written string spells the string.** -/
theorem isString_writeString (s : String) : IsString (writeString s) s :=
  ⟨s.toList.flatMap writeChar, rfl, isChars_flatMap_writeChar s.toList⟩

/-! ### Lists and objects -/

section Structure

variable {β : Type} {IsItem : List Char → β → Prop}

theorem isBody_separated {items : List (List Char)} {xs : List β}
    (h : List.Forall₂ IsItem items xs) : IsBody IsItem (separated items) xs := by
  induction h with
  | nil => exact .blank blanks_nil
  | @cons item x items xs hitem hitems ih =>
    cases hitems with
    | nil =>
      rw [separated, List.intercalate_singleton]
      exact .series (.one hitem)
    | cons =>
      cases ih with
      | series hseries =>
        rw [separated, List.intercalate_cons_cons, List.append_assoc]
        exact .series (.more hitem hseries)

theorem isList_writeList {write : β → List Char} (values : List β) :
    IsList (writeList write values) (values.map write) :=
  ⟨_, rfl, isBody_separated <| List.forall₂_same.2 fun item _ => isPadded_self item⟩

/-- **A written list is a list of its values.** -/
theorem isListOf_writeList {write : β → List Char} {values : List β}
    (h : ∀ value ∈ values, IsItem (write value) value) :
    IsListOf IsItem (writeList write values) values :=
  ⟨_, isList_writeList values, List.forall₂_map_left_iff.2 (List.forall₂_same.2 h)⟩

theorem isOption_writeOption {write : β → List Char} {value : Option β}
    (h : ∀ v ∈ value, IsItem (write v) v) : IsOption IsItem (writeOption write value) value := by
  cases value with
  | none => rfl
  | some v => exact h v rfl

/-- **A written object has the members that it is written for.** -/
theorem isObject_writeObject (members : List (String × List Char)) :
    IsObject IsString (writeObject (members.map fun m => writeMember m.1 m.2)) members := by
  refine ⟨_, rfl, isBody_separated <| List.forall₂_map_left_iff.2 <| List.forall₂_same.2
    fun m _ => ?_⟩
  exact ⟨_, _, _, rfl, isPadded_self _, isString_writeString m.1, isPadded_self _⟩

end Structure

end BenchSweep.Json
