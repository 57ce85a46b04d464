import BenchSweep.ListText
import BenchSweep.Proofs.Except
import BenchSweep.Proofs.Number.Literal
import BenchSweep.Proofs.Text.Blank
import BenchSweep.Proofs.Text.Split
import Mathlib.Data.List.Forall2

/-!
# Lists in texts

Two lists with a comma between them are read one after the other: the entries of the whole are those
of the first and then those of the second. So blank entries and blanks around entries change
nothing, the first entry that cannot be read is the one that is reported, and numbers that are
written with commas and blanks between them are read back.

## Why the laws are a structure

Counts and ratios are read by one function with two readers of entries. What is known of lists does
not depend on the entries, so it is stated once, as `IsListReader`, for any reader of entries, and
shown once. The laws determine the reader: by the first one and the blank entries a text can be
taken apart at its commas, and a piece without commas is read by itself.

## Scope

An entry that is not blank and cannot be read is a failure, even if other entries can. An empty list
is a list. That entries are written without commas and blanks is asked for by `IsEntry`; it holds of
counts and of finite ratios because of the characters that stand in numerals.

## Main definitions

* `IsListReader`: the laws of a reader of lists.
* `IsEntry`, `IsPadded`: a text that is an entry as it stands, and one with blanks around it.

## Main results

* `isListReader_readList`: every reader of entries reads lists by these laws.
* `readList_intercalate`: what is read of entries with commas between them.
* `readRatios_of_readBinary64`: a numeral is a list of one entry.
* `readCounts_readRatios`: the laws for counts and ratios, and their round trips.
-/

namespace BenchSweep

open Number (Binary64 countText isNumeralChar readBinary64 readCount)
open Text (IsBlanks isBlank splitOn trim)

/-- The first of some pieces that is not blank and cannot be read, without the blanks around it. -/
def IsFirstBad {ε α : Type} (read : List Char → Except ε α) (pieces : List (List Char))
    (e : ListError ε) : Prop :=
  ∃ before piece after, pieces = before ++ piece :: after ∧
    (∀ earlier ∈ before, trim earlier = [] ∨ ∃ value, read (trim earlier) = .ok value) ∧
    e.entry = trim piece ∧ e.entry ≠ [] ∧ read e.entry = .error e.cause

/-- The laws of a reader of lists, each of whose entries is read by `read`. -/
structure IsListReader {ε α : Type} (readAll : String → Except (ListError ε) (List α))
    (read : List Char → Except ε α) : Prop where
  /-- Two lists with a comma between them are read one after the other. -/
  readAll_append : ∀ a b : String, readAll (a ++ "," ++ b) =
    match readAll a with
    | .error e => .error e
    | .ok values => (readAll b).map (values ++ ·)
  /-- Blanks around a list change nothing. -/
  readAll_padded : ∀ before s after : String, IsBlanks before.toList → IsBlanks after.toList →
    readAll (before ++ s ++ after) = readAll s
  /-- A blank entry is skipped, wherever it stands. -/
  readAll_blank : ∀ blanks s : String, IsBlanks blanks.toList →
    readAll blanks = .ok [] ∧ readAll (blanks ++ "," ++ s) = readAll s ∧
      readAll (s ++ "," ++ blanks) = readAll s
  /-- A list of one entry is what is read of the entry. -/
  readAll_entry : ∀ s : String, ',' ∉ s.toList → ¬ IsBlanks s.toList → readAll s =
    match read (trim s.toList) with
    | .error cause => .error ⟨trim s.toList, cause⟩
    | .ok value => .ok [value]
  /-- The first entry that cannot be read is reported. -/
  readAll_eq_error_iff : ∀ (s : String) (e : ListError ε),
    readAll s = .error e ↔ IsFirstBad read (splitOn ',' s.toList) e

/-- A text with blanks around it. -/
def IsPadded (s padded : String) : Prop :=
  ∃ before after, IsBlanks before ∧ IsBlanks after ∧
    padded.toList = before ++ (s.toList ++ after)

/-- A text that is an entry as it stands: it is not empty, and has no commas and no blanks. -/
structure IsEntry (s : List Char) : Prop where
  ne_nil : s ≠ []
  comma : ',' ∉ s
  isBlank : ∀ c ∈ s, isBlank c = false

/-! ### Entries -/

theorem entries_append (a b : List Char) : entries (a ++ ',' :: b) = entries a ++ entries b := by
  rw [entries, Text.splitOn_append, List.map_append, List.filter_append, entries, entries]

theorem not_mem_of_isBlanks {s : List Char} (h : IsBlanks s) : ',' ∉ s :=
  fun hc => absurd (h ',' hc) (by decide)

theorem entries_of_isBlanks {s : List Char} (h : IsBlanks s) : entries s = [] := by
  rw [entries, Text.splitOn_of_not_mem (not_mem_of_isBlanks h), List.map_singleton,
    Text.trim_eq_nil_iff.2 h]
  rfl

/-- A text without commas that is not blank is one entry. -/
theorem entries_of_not_mem {s : List Char} (hcomma : ',' ∉ s) (hne : trim s ≠ []) :
    entries s = [trim s] := by
  rw [entries, Text.splitOn_of_not_mem hcomma, List.map_singleton]
  exact List.filter_cons_of_pos (decide_eq_true hne)

/-- The entries of pieces with commas between them are the pieces, trimmed, but for blank ones. -/
theorem entries_intercalate {pieces : List (List Char)} (h : ∀ piece ∈ pieces, ',' ∉ piece) :
    entries ([','].intercalate pieces) = (pieces.map trim).filter (· ≠ []) := by
  cases pieces with
  | nil => rfl
  | cons piece pieces => rw [entries, Text.splitOn_intercalate (List.cons_ne_nil _ _) h]

/-- Blanks at the start of a list change nothing. -/
theorem entries_isBlanks_append {before : List Char} (h : IsBlanks before) (s : List Char) :
    entries (before ++ s) = entries s := by
  obtain ⟨piece, pieces, hs⟩ := List.exists_cons_of_ne_nil (Text.splitOn_ne_nil ',' s)
  have hpieces : ∀ q ∈ piece :: pieces, ',' ∉ q :=
    fun q hq => Text.not_mem_of_mem_splitOn (hs ▸ hq)
  obtain ⟨hpiece, hlater⟩ := List.forall_mem_cons.1 hpieces
  have hjoin : before ++ s = [','].intercalate ((before ++ piece) :: pieces) := by
    rw [← Text.intercalate_splitOn ',' s, hs]
    cases pieces with
    | nil => rw [List.intercalate_singleton, List.intercalate_singleton]
    | cons next later => simp only [List.intercalate_cons_cons, List.append_assoc]
  rw [hjoin, entries_intercalate (List.forall_mem_cons.2 ⟨?_, hlater⟩), entries, hs, List.map_cons,
    Text.trim_isBlanks_append h, List.map_cons]
  exact List.not_mem_append (not_mem_of_isBlanks h) hpiece

/-- Blanks at the end of a list change nothing. -/
theorem entries_append_isBlanks (s : List Char) {after : List Char} (h : IsBlanks after) :
    entries (s ++ after) = entries s := by
  obtain ⟨pieces, piece, hs⟩ := (List.eq_nil_or_concat _).resolve_left (Text.splitOn_ne_nil ',' s)
  rw [List.concat_eq_append] at hs
  have hpieces : ∀ q ∈ pieces ++ [piece], ',' ∉ q :=
    fun q hq => Text.not_mem_of_mem_splitOn (hs ▸ hq)
  obtain ⟨hearlier, hpiece⟩ := List.forall_mem_append.1 hpieces
  have hjoin : s ++ after = [','].intercalate (pieces ++ [piece ++ after]) := by
    rw [← Text.intercalate_splitOn ',' s, hs, Text.intercalate_concat, Text.intercalate_concat,
      List.append_assoc]
  rw [hjoin, entries_intercalate (List.forall_mem_append.2 ⟨hearlier, ?_⟩), entries, hs,
    List.map_append, List.map_singleton, Text.trim_append_of_isBlanks piece h, List.map_append,
    List.map_singleton]
  rintro q hq
  obtain rfl := List.mem_singleton.1 hq
  exact List.not_mem_append (hpiece piece (List.mem_singleton_self piece)) (not_mem_of_isBlanks h)

theorem IsPadded.not_mem {s padded : String} (h : IsPadded s padded) (hs : IsEntry s.toList) :
    ',' ∉ padded.toList := by
  obtain ⟨before, after, hbefore, hafter, heq⟩ := h
  rw [heq]
  exact List.not_mem_append (not_mem_of_isBlanks hbefore)
    (List.not_mem_append hs.comma (not_mem_of_isBlanks hafter))

theorem IsPadded.trim_eq {s padded : String} (h : IsPadded s padded) (hs : IsEntry s.toList) :
    trim padded.toList = s.toList := by
  obtain ⟨before, after, hbefore, hafter, heq⟩ := h
  rw [heq, Text.trim_append hbefore hafter hs.isBlank]

/-- The entries of entries with commas between them, and blanks around them, are the entries. -/
theorem entries_intercalate_isPadded {texts padded : List String}
    (htexts : ∀ text ∈ texts, IsEntry text.toList) (h : List.Forall₂ IsPadded texts padded) :
    entries (",".intercalate padded).toList = texts.map String.toList := by
  have hpieces : (∀ piece ∈ padded.map String.toList, ',' ∉ piece) ∧
      (padded.map String.toList).map trim = texts.map String.toList := by
    induction h with
    | nil => exact ⟨fun _ h => absurd h List.not_mem_nil, rfl⟩
    | cons hpadded _ ih =>
      obtain ⟨htext, htexts⟩ := List.forall_mem_cons.1 htexts
      obtain ⟨hcomma, htrim⟩ := ih htexts
      rw [List.map_cons, List.map_cons, List.map_cons, hpadded.trim_eq htext, htrim]
      exact ⟨List.forall_mem_cons.2 ⟨hpadded.not_mem htext, hcomma⟩, rfl⟩
  have hjoin : (",".intercalate padded).toList = [','].intercalate (padded.map String.toList) :=
    String.toList_intercalate
  rw [hjoin, entries_intercalate hpieces.1, hpieces.2, List.filter_eq_self]
  intro piece hpiece
  obtain ⟨text, htext, rfl⟩ := List.mem_map.1 hpiece
  exact decide_eq_true (htexts text htext).ne_nil

/-! ### Readers of entries -/

section

variable {ε α : Type} {read : List Char → Except ε α}

theorem readEntries_append (first later : List (List Char)) :
    readEntries read (first ++ later) =
      match readEntries read first with
      | .error e => .error e
      | .ok values => (readEntries read later).map (values ++ ·) := by
  induction first with
  | nil =>
    rw [List.nil_append, readEntries]
    cases readEntries read later <;> rfl
  | cons entry first ih =>
    rw [List.cons_append, readEntries, readEntries]
    cases read entry with
    | error cause => rfl
    | ok value =>
      dsimp only
      rw [ih]
      cases readEntries read first with
      | error e => rfl
      | ok values => cases readEntries read later <;> rfl

theorem isFirstBad_cons_iff {piece : List Char} {pieces : List (List Char)} {e : ListError ε} :
    IsFirstBad read (piece :: pieces) e ↔
      (e.entry = trim piece ∧ e.entry ≠ [] ∧ read e.entry = .error e.cause) ∨
        (trim piece = [] ∨ ∃ value, read (trim piece) = .ok value) ∧
          IsFirstBad read pieces e := by
  constructor
  · rintro ⟨_ | ⟨first, before⟩, bad, after, hsplit, hbefore, hbad⟩
    · obtain ⟨rfl, rfl⟩ := List.cons.inj hsplit
      exact .inl hbad
    · obtain ⟨rfl, rfl⟩ := List.cons.inj hsplit
      obtain ⟨hfirst, hbefore⟩ := List.forall_mem_cons.1 hbefore
      exact .inr ⟨hfirst, before, bad, after, rfl, hbefore, hbad⟩
  · rintro (hbad | ⟨hpiece, before, bad, after, rfl, hbefore, hbad⟩)
    · exact ⟨[], piece, pieces, rfl, fun _ h => absurd h List.not_mem_nil, hbad⟩
    · exact ⟨piece :: before, bad, after, rfl, List.forall_mem_cons.2 ⟨hpiece, hbefore⟩, hbad⟩

/-- The first piece that is not blank and cannot be read is reported. -/
theorem readEntries_eq_error_iff {pieces : List (List Char)} {e : ListError ε} :
    readEntries read ((pieces.map trim).filter (· ≠ [])) = .error e ↔
      IsFirstBad read pieces e := by
  induction pieces with
  | nil =>
    constructor
    · intro h
      cases h
    · rintro ⟨_ | _, _, _, hsplit, -⟩ <;> cases hsplit
  | cons piece pieces ih =>
    rw [List.map_cons, isFirstBad_cons_iff, ← ih]
    by_cases hblank : trim piece = []
    · rw [List.filter_cons_of_neg (by simpa using hblank)]
      constructor
      · exact fun h => .inr ⟨.inl hblank, h⟩
      · rintro (⟨hentry, hne, -⟩ | ⟨-, h⟩)
        · exact absurd (hentry.trans hblank) hne
        · exact h
    · rw [List.filter_cons_of_pos (by simpa using hblank), readEntries]
      cases hread : read (trim piece) with
      | error cause =>
        constructor
        · intro h
          cases h
          exact .inl ⟨rfl, hblank, hread⟩
        · rintro (⟨hentry, -, hcause⟩ | ⟨hpiece | ⟨value, hvalue⟩, -⟩)
          · rw [hentry, hread] at hcause
            rw [← hentry, Except.error.inj hcause]
          · exact absurd hpiece hblank
          · cases hvalue
      | ok value =>
        constructor
        · exact fun h => .inr ⟨.inr ⟨value, rfl⟩, eq_error_of_map h⟩
        · rintro (⟨hentry, -, hcause⟩ | ⟨-, h⟩)
          · rw [hentry, hread] at hcause
            cases hcause
          · dsimp only
            rw [h]
            rfl

/-- Entries that are read one by one are read together. -/
theorem readEntries_eq_ok {entries : List (List Char)} {values : List α}
    (h : List.Forall₂ (fun entry value => read entry = .ok value) entries values) :
    readEntries read entries = .ok values := by
  induction h with
  | nil => rfl
  | cons hread _ ih =>
    rw [readEntries, hread]
    dsimp only
    rw [ih]
    rfl

/-- **Every reader of entries reads lists by these laws.** -/
theorem isListReader_readList : IsListReader (fun s => readList read s.toList) read where
  readAll_append a b := by
    have hjoin : (a ++ "," ++ b).toList = a.toList ++ ',' :: b.toList := by simp
    simp only [readList]
    rw [hjoin, entries_append, readEntries_append]
  readAll_padded before s after hbefore hafter := by
    simp only [readList, String.toList_append]
    rw [List.append_assoc, entries_isBlanks_append hbefore, entries_append_isBlanks _ hafter]
  readAll_blank blanks s h := by
    have hbefore : (blanks ++ "," ++ s).toList = blanks.toList ++ ',' :: s.toList := by simp
    have hafter : (s ++ "," ++ blanks).toList = s.toList ++ ',' :: blanks.toList := by simp
    simp only [readList]
    rw [hbefore, hafter, entries_append, entries_append, entries_of_isBlanks h, List.nil_append,
      List.append_nil]
    exact ⟨rfl, rfl, rfl⟩
  readAll_entry s hcomma hblank := by
    simp only [readList]
    rw [entries_of_not_mem hcomma (mt Text.trim_eq_nil_iff.1 hblank), readEntries]
    cases read (trim s.toList) <;> rfl
  readAll_eq_error_iff _ _ := readEntries_eq_error_iff

/-- **Entries with commas between them, and blanks around them, are read back.** -/
theorem readList_intercalate {values : List α} {text : α → String} {texts : List String}
    (htext : ∀ value ∈ values, IsEntry (text value).toList ∧ read (text value).toList = .ok value)
    (h : List.Forall₂ (fun value padded => IsPadded (text value) padded) values texts) :
    readList read (",".intercalate texts).toList = .ok values := by
  have hentries : ∀ entry ∈ values.map text, IsEntry entry.toList :=
    List.forall_mem_map.2 fun value hvalue => (htext value hvalue).1
  rw [readList, entries_intercalate_isPadded hentries (List.forall₂_map_left_iff.2 h),
    List.map_map]
  refine readEntries_eq_ok (List.forall₂_map_left_iff.2 (List.forall₂_same.2 ?_))
  exact fun value hvalue => (htext value hvalue).2

end

/-! ### Counts and ratios -/

/-- A numeral is an entry as it stands. -/
theorem isEntry_of_isNumeralChar {s : List Char} (hne : s ≠ [])
    (h : ∀ c ∈ s, isNumeralChar c = true) : IsEntry s :=
  ⟨hne, fun hc => absurd (h ',' hc) (by decide), fun c hc => isBlank_of_isNumeralChar (h c hc)⟩

theorem isEntry_of_readBinary64 {s : List Char} {x : Binary64} (h : readBinary64 s = .ok x) :
    IsEntry s := by
  refine isEntry_of_isNumeralChar ?_ fun _ => Number.isNumeralChar_of_mem h
  rintro rfl
  cases h

/-- **A numeral is a list of one entry.** -/
theorem readRatios_of_readBinary64 {s : List Char} {x : Binary64} (h : readBinary64 s = .ok x) :
    readRatios (String.ofList s) = .ok [x] := by
  have hentry := isEntry_of_readBinary64 h
  have htrim := Text.trim_of_forall hentry.isBlank
  have hentries : entries s = [s] := by
    rw [entries_of_not_mem hentry.comma (htrim.symm ▸ hentry.ne_nil), htrim]
  rw [readRatios, String.toList_ofList, readList, hentries, readEntries, h]
  rfl

/-- **Lists of counts and of ratios** follow the laws, and the lists that are written are read
back: counts as they are, and ratios bit for bit. -/
theorem readCounts_readRatios :
    IsListReader readCounts readCount ∧ IsListReader readRatios readBinary64 ∧
      (∀ (counts : List UInt64) (texts : List String),
        List.Forall₂ (fun n text => IsPadded (countText n) text) counts texts →
          readCounts (",".intercalate texts) = .ok counts) ∧
      ∀ (ratios : List Binary64) (texts : List String), (∀ x ∈ ratios, x.isFinite = true) →
        List.Forall₂ (fun x text => IsPadded x.ratioText text) ratios texts →
          readRatios (",".intercalate texts) = .ok ratios := by
  refine ⟨isListReader_readList, isListReader_readList, fun counts texts h => ?_,
    fun ratios texts hfinite h => ?_⟩
  · refine readList_intercalate (fun n _ => ?_) h
    rw [countText, Number.natText, String.toList_ofList]
    refine ⟨isEntry_of_isNumeralChar (Number.decimal_ne_nil _) fun _ hc => ?_,
      Number.readCount_decimal n⟩
    exact Number.isNumeralChar_of_isDigit (Number.isDigit_of_mem_decimal hc)
  · refine readList_intercalate (fun x hx => ?_) h
    rw [Binary64.ratioText, String.toList_ofList]
    have hread := Binary64.readBinary64_ratioChars (hfinite x hx)
    exact ⟨isEntry_of_readBinary64 hread, hread⟩

-- the largest count is read, whatever stands around it, and the next one is the first bad entry
example : readCounts " 2,,\u00a0+007 ,18446744073709551615," = .ok [2, 7, 18446744073709551615] ∧
    readCounts "2, 18446744073709551616 ,x" =
      .error ⟨"18446744073709551616".toList, .tooLarge⟩ := by
  decide +kernel

end BenchSweep
