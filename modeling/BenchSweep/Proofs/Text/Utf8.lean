import BenchSweep.Text.Utf8
import Mathlib.Data.List.Basic

/-!
# Decoding is the inverse of encoding

A byte string is decoded to a text exactly if it is the encoding of that text. One step is as good
as one character: the first piece of a byte string is a character exactly if the byte string starts
with the bytes of this character.

## Why one step is shown first

A decoder looks at the first byte, decides how many belong to the character, and checks them one by
one; there are four lengths, and for some first bytes the second is restricted. The encoder of the
library computes bytes from a code point. That both agree is arithmetic on one character
(`nextPiece_eq_char_iff`), and is the only place where the ranges are looked at. All texts follow by
induction on the bytes, one piece at a time.

## Scope

Which bytes are grouped together where they are no character is left open here. It matters for the
number of replacement characters only.

## Main results

* `nextPiece_eq_char_iff`: one step.
* `decode?_eq_some_iff`: the decoding of a byte string.
* `encode_injective`: the encoding of a text determines it.
-/

namespace BenchSweep.Text

/-! ### Bytes -/

/-- What the lead byte says of the length. -/
theorem sequenceLength_spec (lead : UInt8) :
    (sequenceLength lead = 1 ↔ lead.toNat < 0x80) ∧
    (sequenceLength lead = 2 ↔ 0xC2 ≤ lead.toNat ∧ lead.toNat ≤ 0xDF) ∧
    (sequenceLength lead = 3 ↔ 0xE0 ≤ lead.toNat ∧ lead.toNat ≤ 0xEF) ∧
    (sequenceLength lead = 4 ↔ 0xF0 ≤ lead.toNat ∧ lead.toNat ≤ 0xF4) := by
  unfold sequenceLength
  simp only [Bool.and_eq_true, decide_eq_true_eq]
  repeat' split
  all_goals omega

theorem isContinuation_iff {b : UInt8} :
    isContinuation b = true ↔ 0x80 ≤ b.toNat ∧ b.toNat ≤ 0xBF := by
  rw [isContinuation, Bool.and_eq_true, decide_eq_true_eq, decide_eq_true_eq]

/-- The bytes that may follow a lead byte of three or four. -/
theorem isSecond_iff {lead second : UInt8} :
    isSecond lead second = true ↔
      (0x80 ≤ second.toNat ∧ second.toNat ≤ 0xBF) ∧
      (lead.toNat = 0xE0 → 0xA0 ≤ second.toNat) ∧ (lead.toNat = 0xED → second.toNat ≤ 0x9F) ∧
      (lead.toNat = 0xF0 → 0x90 ≤ second.toNat) ∧ (lead.toNat = 0xF4 → second.toNat ≤ 0x8F) := by
  unfold isSecond
  dsimp only
  split <;> rw [Bool.and_eq_true, decide_eq_true_eq, decide_eq_true_eq]
  next h => omega
  next h => omega
  next h => omega
  next h => omega
  next h₁ h₂ h₃ h₄ =>
    exact ⟨fun h => ⟨h, fun he => (h₁ he).elim, fun he => (h₂ he).elim, fun he => (h₃ he).elim,
      fun he => (h₄ he).elim⟩, And.left⟩

/-! ### Characters -/

/-- The bytes of the character with a given number. -/
theorem utf8EncodeChar_ofNat {v : ℕ} (hv : v.isValidChar) :
    String.utf8EncodeChar (Char.ofNat v) =
      if v ≤ 0x7F then [UInt8.ofNat v]
      else if v ≤ 0x7FF then [UInt8.ofNat (v / 64 % 32 + 0xC0), UInt8.ofNat (v % 64 + 0x80)]
      else if v ≤ 0xFFFF then
        [UInt8.ofNat (v / 4096 % 16 + 0xE0), UInt8.ofNat (v / 64 % 64 + 0x80),
          UInt8.ofNat (v % 64 + 0x80)]
      else
        [UInt8.ofNat (v / 262144 % 8 + 0xF0), UInt8.ofNat (v / 4096 % 64 + 0x80),
          UInt8.ofNat (v / 64 % 64 + 0x80), UInt8.ofNat (v % 64 + 0x80)] := by
  have htoNat : (Char.ofNat v).val.toNat = v := by
    rw [Char.ofNat, dif_pos hv]
    rfl
  unfold String.utf8EncodeChar
  dsimp only
  rw [htoNat]

/-- The bytes of a character from 128 on are from 128 on. -/
theorem le_of_mem_utf8EncodeChar {c : Char} (hc : 128 ≤ c.toNat) {b : UInt8}
    (h : b ∈ String.utf8EncodeChar c) : 128 ≤ b.toNat := by
  have hlarge : ¬c.val.toNat ≤ 127 := Nat.not_le.2 hc
  unfold String.utf8EncodeChar at h
  dsimp only at h
  rw [if_neg hlarge] at h
  split at h
  · simp only [List.mem_cons, List.not_mem_nil, or_false] at h
    rcases h with rfl | rfl <;> rw [UInt8.toNat_ofNat'] <;> omega
  split at h
  · simp only [List.mem_cons, List.not_mem_nil, or_false] at h
    rcases h with rfl | rfl | rfl <;> rw [UInt8.toNat_ofNat'] <;> omega
  · simp only [List.mem_cons, List.not_mem_nil, or_false] at h
    rcases h with rfl | rfl | rfl | rfl <;> rw [UInt8.toNat_ofNat'] <;> omega

/-- A byte below 128 stands for the character with its number, and for no other. -/
theorem toNat_eq_of_mem_utf8EncodeChar {c : Char} {b : UInt8} (hb : b.toNat < 128)
    (h : b ∈ String.utf8EncodeChar c) : c.toNat = b.toNat := by
  have hc : c.val.toNat < 128 := by
    by_contra hc
    have := le_of_mem_utf8EncodeChar (Nat.not_lt.1 hc) h
    omega
  unfold String.utf8EncodeChar at h
  dsimp only at h
  rw [if_pos (Nat.le_of_lt_succ hc), List.mem_singleton] at h
  rw [h, UInt8.toNat_ofNat', Nat.mod_eq_of_lt (by omega), Char.toNat]

theorem ofNat_eq {b : UInt8} {n : ℕ} (h : n = b.toNat) : UInt8.ofNat n = b := by
  rw [h, UInt8.ofNat_toNat]

theorem toNat_ofNat_of_lt {n : ℕ} (h : n < 256) : (UInt8.ofNat n).toNat = n := by
  rw [UInt8.toNat_ofNat', Nat.mod_eq_of_lt h]

variable {lead : UInt8} {rest later : Bytes} {c : Char}

/-! ### Pieces -/

theorem nextPiece_eq_char_iff_of_one (h : sequenceLength lead = 1) :
    nextPiece lead rest = (.char c, later) ↔ rest = later ∧ Char.ofNat lead.toNat = c := by
  simp [nextPiece, h, and_comm]

theorem nextPiece_eq_char_iff_of_two (h : sequenceLength lead = 2) :
    nextPiece lead rest = (.char c, later) ↔
      ∃ b, rest = b :: later ∧ isContinuation b = true ∧
        Char.ofNat (lead.toNat % 32 * 64 + lowBits b) = c := by
  cases rest with
  | nil => simp [nextPiece, h]
  | cons b rest => cases hb : isContinuation b <;> simp [nextPiece, h, hb, and_comm]

theorem nextPiece_eq_char_iff_of_three (h : sequenceLength lead = 3) :
    nextPiece lead rest = (.char c, later) ↔
      ∃ b₁ b₂, rest = b₁ :: b₂ :: later ∧ isSecond lead b₁ = true ∧ isContinuation b₂ = true ∧
        Char.ofNat ((lead.toNat % 16 * 64 + lowBits b₁) * 64 + lowBits b₂) = c := by
  rcases rest with _ | ⟨b₁, _ | ⟨b₂, rest⟩⟩
  · simp [nextPiece, h]
  · cases h₁ : isSecond lead b₁ <;> simp [nextPiece, h, h₁]
  · cases h₁ : isSecond lead b₁ <;> cases h₂ : isContinuation b₂ <;>
      simp [nextPiece, h, h₁, h₂, and_comm]

theorem nextPiece_eq_char_iff_of_four (h : sequenceLength lead = 4) :
    nextPiece lead rest = (.char c, later) ↔
      ∃ b₁ b₂ b₃, rest = b₁ :: b₂ :: b₃ :: later ∧ isSecond lead b₁ = true ∧
        isContinuation b₂ = true ∧ isContinuation b₃ = true ∧
        Char.ofNat (((lead.toNat % 8 * 64 + lowBits b₁) * 64 + lowBits b₂) * 64 + lowBits b₃) =
          c := by
  rcases rest with _ | ⟨b₁, _ | ⟨b₂, _ | ⟨b₃, rest⟩⟩⟩
  · simp [nextPiece, h]
  · cases h₁ : isSecond lead b₁ <;> simp [nextPiece, h, h₁]
  · cases h₁ : isSecond lead b₁ <;> cases h₂ : isContinuation b₂ <;> simp [nextPiece, h, h₁, h₂]
  · cases h₁ : isSecond lead b₁ <;> cases h₂ : isContinuation b₂ <;>
      cases h₃ : isContinuation b₃ <;> simp [nextPiece, h, h₁, h₂, h₃, and_comm]

/-- A piece that is a character has the bytes of the character. -/
theorem eq_utf8EncodeChar_of_nextPiece (h : nextPiece lead rest = (.char c, later)) :
    lead :: rest = String.utf8EncodeChar c ++ later := by
  obtain ⟨hone, htwo, hthree, hfour⟩ := sequenceLength_spec lead
  have hlength : sequenceLength lead = 1 ∨ sequenceLength lead = 2 ∨ sequenceLength lead = 3 ∨
      sequenceLength lead = 4 := by
    unfold nextPiece at h
    split at h <;> simp_all
  rcases hlength with hlength | hlength | hlength | hlength
  · obtain ⟨rfl, rfl⟩ := (nextPiece_eq_char_iff_of_one hlength).1 h
    have hlead := hone.1 hlength
    rw [utf8EncodeChar_ofNat (.inl (by omega)), if_pos (by omega), ofNat_eq rfl]
    rfl
  · obtain ⟨b, rfl, hb, rfl⟩ := (nextPiece_eq_char_iff_of_two hlength).1 h
    have hlead := htwo.1 hlength
    rw [isContinuation_iff] at hb
    rw [lowBits, utf8EncodeChar_ofNat (.inl (by omega)), if_neg (by omega), if_pos (by omega),
      ofNat_eq (b := lead) (by omega), ofNat_eq (b := b) (by omega)]
    rfl
  · obtain ⟨b₁, b₂, rfl, h₁, h₂, rfl⟩ := (nextPiece_eq_char_iff_of_three hlength).1 h
    have hlead := hthree.1 hlength
    rw [isSecond_iff] at h₁
    rw [isContinuation_iff] at h₂
    rw [lowBits, lowBits, utf8EncodeChar_ofNat (by unfold Nat.isValidChar; omega),
      if_neg (by omega), if_neg (by omega), if_pos (by omega), ofNat_eq (b := lead) (by omega),
      ofNat_eq (b := b₁) (by omega), ofNat_eq (b := b₂) (by omega)]
    rfl
  · obtain ⟨b₁, b₂, b₃, rfl, h₁, h₂, h₃, rfl⟩ := (nextPiece_eq_char_iff_of_four hlength).1 h
    have hlead := hfour.1 hlength
    rw [isSecond_iff] at h₁
    rw [isContinuation_iff] at h₂ h₃
    rw [lowBits, lowBits, lowBits, utf8EncodeChar_ofNat (by unfold Nat.isValidChar; omega),
      if_neg (by omega), if_neg (by omega), if_neg (by omega), ofNat_eq (b := lead) (by omega),
      ofNat_eq (b := b₁) (by omega), ofNat_eq (b := b₂) (by omega), ofNat_eq (b := b₃) (by omega)]
    rfl

/-- The bytes of a character are a piece. -/
theorem nextPiece_of_eq_utf8EncodeChar (h : lead :: rest = String.utf8EncodeChar c ++ later) :
    nextPiece lead rest = (.char c, later) := by
  obtain ⟨v, hv, rfl⟩ : ∃ v : ℕ, v.isValidChar ∧ Char.ofNat v = c :=
    ⟨c.toNat, c.valid, Char.ofNat_toNat c⟩
  rw [utf8EncodeChar_ofNat hv] at h
  obtain ⟨hone, htwo, hthree, hfour⟩ := sequenceLength_spec lead
  unfold Nat.isValidChar at hv
  split at h
  · obtain ⟨rfl, rfl⟩ := List.cons.inj h
    have hlead := toNat_ofNat_of_lt (n := v) (by omega)
    refine (nextPiece_eq_char_iff_of_one (hone.2 (by omega))).2 ⟨rfl, ?_⟩
    rw [hlead]
  split at h
  · obtain ⟨rfl, rfl⟩ := List.cons.inj h
    have hlead := toNat_ofNat_of_lt (n := v / 64 % 32 + 0xC0) (by omega)
    have h₁ := toNat_ofNat_of_lt (n := v % 64 + 0x80) (by omega)
    refine (nextPiece_eq_char_iff_of_two (htwo.2 (by omega))).2 ⟨_, rfl, ?_, ?_⟩
    · rw [isContinuation_iff]
      omega
    · rw [lowBits]
      congr 1
      omega
  split at h
  · obtain ⟨rfl, rfl⟩ := List.cons.inj h
    have hlead := toNat_ofNat_of_lt (n := v / 4096 % 16 + 0xE0) (by omega)
    have h₁ := toNat_ofNat_of_lt (n := v / 64 % 64 + 0x80) (by omega)
    have h₂ := toNat_ofNat_of_lt (n := v % 64 + 0x80) (by omega)
    refine (nextPiece_eq_char_iff_of_three (hthree.2 (by omega))).2 ⟨_, _, rfl, ?_, ?_, ?_⟩
    · rw [isSecond_iff]
      omega
    · rw [isContinuation_iff]
      omega
    · rw [lowBits, lowBits]
      congr 1
      omega
  · obtain ⟨rfl, rfl⟩ := List.cons.inj h
    have hlead := toNat_ofNat_of_lt (n := v / 262144 % 8 + 0xF0) (by omega)
    have h₁ := toNat_ofNat_of_lt (n := v / 4096 % 64 + 0x80) (by omega)
    have h₂ := toNat_ofNat_of_lt (n := v / 64 % 64 + 0x80) (by omega)
    have h₃ := toNat_ofNat_of_lt (n := v % 64 + 0x80) (by omega)
    refine (nextPiece_eq_char_iff_of_four (hfour.2 (by omega))).2 ⟨_, _, _, rfl, ?_, ?_, ?_, ?_⟩
    · rw [isSecond_iff]
      omega
    · rw [isContinuation_iff]
      omega
    · rw [isContinuation_iff]
      omega
    · rw [lowBits, lowBits, lowBits]
      congr 1
      omega

/-- **One step of decoding.** The first piece of a byte string is a character if and only if the
byte string starts with the bytes of the character. -/
theorem nextPiece_eq_char_iff :
    nextPiece lead rest = (.char c, later) ↔ lead :: rest = String.utf8EncodeChar c ++ later :=
  ⟨eq_utf8EncodeChar_of_nextPiece, nextPiece_of_eq_utf8EncodeChar⟩

/-! ### Texts -/

theorem encode_append (s t : List Char) : encode (s ++ t) = encode s ++ encode t :=
  List.flatMap_append

theorem byteLength_append (s t : List Char) :
    byteLength (s ++ t) = byteLength s + byteLength t := by
  induction s with
  | nil => exact (Nat.zero_add _).symm
  | cons c s ih =>
    have hcons (s : List Char) : byteLength (c :: s) = c.utf8Size + byteLength s := rfl
    rw [List.cons_append, hcons, hcons, ih, Nat.add_assoc]

theorem decode?_nil : decode? [] = some [] := by
  rw [decode?, pieces]
  rfl

/-- A text that is not empty is its first character and the text of what comes after it. -/
theorem decode?_cons_eq_some_iff {text : List Char} :
    decode? (lead :: rest) = some text ↔
      ∃ c later more, nextPiece lead rest = (.char c, later) ∧ decode? later = some more ∧
        text = c :: more := by
  rw [decode?, pieces, List.mapM_cons, Option.bind_eq_bind, Option.bind_eq_some_iff]
  generalize nextPiece lead rest = next
  obtain ⟨piece, later⟩ := next
  constructor
  · rintro ⟨c, hc, hmore⟩
    obtain ⟨more, hdecode, htext⟩ := Option.bind_eq_some_iff.1 hmore
    cases piece with
    | malformed => cases hc
    | char c' =>
      cases hc
      exact ⟨c, later, more, rfl, hdecode, (Option.some.inj htext).symm⟩
  · rintro ⟨c, later', more, he, hdecode, rfl⟩
    cases he
    exact ⟨c, rfl, Option.bind_eq_some_iff.2 ⟨more, hdecode, rfl⟩⟩

/-- **A byte string is decoded to a text if and only if it is the encoding of the text.** -/
theorem decode?_eq_some_iff {bytes : Bytes} {text : List Char} :
    decode? bytes = some text ↔ bytes = encode text := by
  induction text generalizing bytes with
  | nil =>
    cases bytes with
    | nil => exact iff_of_true decode?_nil rfl
    | cons lead rest =>
      refine iff_of_false (fun h => ?_) (List.cons_ne_nil _ _)
      obtain ⟨_, _, _, -, -, h⟩ := decode?_cons_eq_some_iff.1 h
      cases h
  | cons c text ih =>
    have hencode : encode (c :: text) = String.utf8EncodeChar c ++ encode text := rfl
    rw [hencode]
    cases bytes with
    | nil =>
      refine iff_of_false (fun h => ?_) fun h => ?_
      · cases decode?_nil.symm.trans h
      · exact String.utf8EncodeChar_ne_nil (List.append_eq_nil_iff.1 h.symm).1
    | cons lead rest =>
      rw [decode?_cons_eq_some_iff]
      constructor
      · rintro ⟨c', later, more, hnext, hdecode, htext⟩
        cases htext
        rw [nextPiece_eq_char_iff.1 hnext, ih.1 hdecode]
      · intro h
        exact ⟨c, encode text, text, nextPiece_eq_char_iff.2 h, ih.2 rfl, rfl⟩

/-- The bytes of a text determine it. -/
theorem encode_injective : Function.Injective encode := by
  intro s t h
  have hs : decode? (encode s) = some s := decode?_eq_some_iff.2 rfl
  rw [h, decode?_eq_some_iff.2 rfl] at hs
  exact (Option.some.inj hs).symm

end BenchSweep.Text
