import BenchSweep.Proofs.Metrics.Grammar

/-!
# What is wrong with an output

An output that is not read is reported with one error, although much may be wrong with it at once.
What is not UTF-8 is reported first, then a wrong number of lines, and of the lines only the first
that holds no value. The lines are counted as they stand: one more than there are line feeds, where
one at the end does not count.

## Why there is one report

An output with a missing line and a line that is no number is wrong twice, and a user is told of the
line that is missing. The order is part of the statement: `IsDiagnosis` has its three constructors
with conditions that exclude each other, and `FirstFault` goes through names and lines together,
past lines that hold a value. So an output has one diagnosis, or none and is read.

## How lines are counted

A line feed at the very end does not start another line, and two of them do. An output that is empty
or is a single line feed has no line at all. `IsRows` says which lines those are without the walk
that finds them, by the text that they give with line feeds between them.

## Main definitions

* `Metrics.lineCount`, `Metrics.IsRows`: the number of lines of a text, and the lines.
* `Metrics.IsFault`: what is wrong with a line.
* `Metrics.FirstFault`: what is wrong with the first line that holds no value.
* `Metrics.IsDiagnosis`: what is wrong with lines.

## Main results

* `Metrics.exists_isFault_iff`: a line is at fault if it holds no value.
* `Metrics.read_diagnosis`: what outputs are reported with.
-/

namespace BenchSweep.Metrics

open Number (IsNumeral natText)
open Text (Bytes IsBlanks IsTrimmed encode quoteList splitOn trim)

/-! ### Lines -/

/-- The number of lines of a text. -/
def lineCount (text : List Char) : ℕ :=
  if text = [] ∨ text = ['\n'] then 0 else (dropEnd '\n' text).count '\n' + 1

/-- The lines of a text as they stand, without the line feeds. -/
structure IsRows (rows : List (List Char)) (text : List Char) : Prop where
  length_eq : rows.length = lineCount text
  intercalate_eq : ['\n'].intercalate rows = dropEnd '\n' text
  not_mem : ∀ row ∈ rows, '\n' ∉ row

/-- A line as it is shown: without the carriage return at its end, if it has one. -/
def IsShown (row shown : List Char) : Prop :=
  row = shown ++ ['\r'] ∨ row = shown ∧ row.getLast? ≠ some '\r'

theorem dropEnd_eq_nil_iff {c : Char} {s : List Char} :
    dropEnd c s = [] ↔ s = [] ∨ s = [c] := by
  constructor
  · intro h
    obtain ⟨last, hs, hlast⟩ := exists_eq_dropEnd_append c s
    rw [h, List.nil_append] at hs
    exact hs ▸ hlast
  · rintro (rfl | rfl)
    · rfl
    · exact dropEnd_append_self c []

theorem isShown_iff {row shown : List Char} : IsShown row shown ↔ dropEnd '\r' row = shown := by
  constructor
  · rintro (rfl | ⟨rfl, h⟩)
    · exact dropEnd_append_self _ _
    · exact if_neg h
  · rintro rfl
    rw [IsShown, dropEnd]
    split
    · next h => exact .inl (List.dropLast_append_getLast? _ h).symm
    · next h => exact .inr ⟨rfl, h⟩

/-- Every text has its lines. -/
theorem exists_isRows (text : List Char) : ∃ rows, IsRows rows text := by
  by_cases h : dropEnd '\n' text = []
  · exact ⟨[], by rw [lineCount, if_pos (dropEnd_eq_nil_iff.1 h)]; rfl, h.symm, by simp⟩
  · have hrows : ∀ row ∈ splitOn '\n' (dropEnd '\n' text), '\n' ∉ row :=
      fun _ => Text.not_mem_of_mem_splitOn
    have hjoin := Text.intercalate_splitOn '\n' (dropEnd '\n' text)
    refine ⟨splitOn '\n' (dropEnd '\n' text), ?_, hjoin, hrows⟩
    have hcount := Text.count_intercalate hrows
    have hne : splitOn '\n' (dropEnd '\n' text) ≠ [] := fun hnil => h (by rw [← hjoin, hnil]; rfl)
    have hpos := List.length_pos_of_ne_nil hne
    rw [hjoin] at hcount
    rw [lineCount, if_neg (mt dropEnd_eq_nil_iff.2 h), hcount]
    omega

/-- The lines that are read are the lines of the text without their carriage returns. -/
theorem IsRows.lines_eq {rows : List (List Char)} {text : List Char} (h : IsRows rows text) :
    lines text = rows.map (dropEnd '\r') := by
  have hlength := h.length_eq
  rw [lineCount] at hlength
  rw [lines]
  split at hlength
  · next hempty => rw [if_pos (dropEnd_eq_nil_iff.2 hempty), List.length_eq_zero_iff.1 hlength]; rfl
  · next hempty =>
    have hne : rows ≠ [] := List.ne_nil_of_length_eq_add_one hlength
    rw [if_neg (mt dropEnd_eq_nil_iff.1 hempty), ← h.intercalate_eq,
      Text.splitOn_intercalate hne h.not_mem]

/-! ### Faults of lines -/

/-- What is wrong with a line that holds no value: it is blank, or what stands on it between blanks
is no numeral. -/
inductive IsFault (field : String) (row : List Char) : MetricsError → Prop
  | blank (h : IsBlanks row) : IsFault field row (.blank field)
  | notNumber {value : List Char} (h : ¬IsBlanks row) (hvalue : IsTrimmed value row)
      (hnumeral : ¬IsNumeral value) : IsFault field row (.notNumber field (String.ofList value))

/-- What is wrong with the first line that holds no value. -/
inductive FirstFault : List String → List (List Char) → MetricsError → Prop
  | here {field fields row rows e} (h : IsFault field row e) :
      FirstFault (field :: fields) (row :: rows) e
  | later {field fields row rows e} (hrow : ∃ value, IsLine value row)
      (h : FirstFault fields rows e) : FirstFault (field :: fields) (row :: rows) e

/-- What is wrong with lines: there are too few, too many, or one of them holds no value. -/
inductive IsDiagnosis (rows : List (List Char)) : MetricsError → Prop
  | tooFew (h : rows.length < names.length) : IsDiagnosis rows (.tooFew rows.length)
  | tooMany {extra : List String} (h : names.length < rows.length)
      (hextra : List.Forall₂ IsShown (rows.drop names.length) (extra.map String.toList)) :
      IsDiagnosis rows (.tooMany extra)
  | fault {e : MetricsError} (h : rows.length = names.length) (hfault : FirstFault names rows e) :
      IsDiagnosis rows e

section Line

variable {field : String} {row : List Char} {e : MetricsError}

theorem readField_eq_error_iff :
    readField field (dropEnd '\r' row) = .error e ↔ IsFault field row e := by
  rw [readField, trim_dropEnd]
  constructor
  · intro h
    split at h
    · next hblank =>
      cases h
      exact .blank (Text.trim_eq_nil_iff.1 hblank)
    next hblank =>
    split at h
    · cases h
    · next error hread =>
      cases h
      refine .notNumber (mt Text.trim_eq_nil_iff.2 hblank) (Text.isTrimmed_iff.2 rfl) fun h => ?_
      obtain ⟨x, hx⟩ := Number.isNumeral_iff.1 h
      rw [hread] at hx
      cases hx
  · rintro (h | ⟨hblank, hvalue, hnumeral⟩)
    · rw [if_pos (Text.trim_eq_nil_iff.2 h)]
    · rw [if_neg (mt Text.trim_eq_nil_iff.1 hblank), hvalue.trim_eq]
      cases hread : Number.readBinary64 _ with
      | ok x => exact absurd (Number.isNumeral_iff.2 ⟨x, hread⟩) hnumeral
      | error _ => rfl

theorem isLine_iff_readField (field : String) (hrow : '\n' ∉ row) {value : List Char} :
    IsLine value row ↔ readField field (dropEnd '\r' row) = .ok (String.ofList value) := by
  rw [isLine_iff hrow, readField_eq_ok_iff, String.toList_ofList]

/-- The lines at fault are those that hold no value. -/
theorem exists_isFault_iff (hrow : '\n' ∉ row) :
    (∃ e, IsFault field row e) ↔ ¬∃ value, IsLine value row := by
  simp only [← readField_eq_error_iff, isLine_iff_readField field hrow]
  cases readField field (dropEnd '\r' row) with
  | error e => simp
  | ok value =>
    refine iff_of_false (fun ⟨_, he⟩ => nomatch he) fun h => h ⟨value.toList, ?_⟩
    rw [String.ofList_toList]

/-- What follows a line is looked at only if the line holds a value. -/
theorem readField_bind_eq_error_iff {α : Type} {next : String → Except MetricsError α}
    (hrow : '\n' ∉ row) :
    (readField field (dropEnd '\r' row) >>= next) = .error e ↔
      IsFault field row e ∨ ∃ value, IsLine value row ∧ next (String.ofList value) = .error e := by
  simp only [← readField_eq_error_iff, isLine_iff_readField field hrow]
  cases readField field (dropEnd '\r' row) with
  | error e' => simp [bind, Except.bind]
  | ok value =>
    constructor
    · intro h
      exact .inr ⟨value.toList, by rw [String.ofList_toList], by rwa [String.ofList_toList]⟩
    · rintro (h | ⟨_, h, hnext⟩)
      · cases h
      · rwa [← Except.ok.inj h] at hnext

end Line

theorem firstFault_cons_iff {field : String} {fields : List String} {row : List Char}
    {rows : List (List Char)} {e : MetricsError} :
    FirstFault (field :: fields) (row :: rows) e ↔
      IsFault field row e ∨ (∃ value, IsLine value row) ∧ FirstFault fields rows e := by
  constructor
  · rintro (h | ⟨hrow, h⟩)
    · exact .inl h
    · exact .inr ⟨hrow, h⟩
  · rintro (h | ⟨hrow, h⟩)
    · exact .here h
    · exact .later hrow h

/-! ### Outputs -/

/-- Five lines are refused for the first of them that holds no value. -/
theorem ofLines_eq_error_iff_firstFault {rows : List (List Char)} {e : MetricsError}
    (hrows : ∀ row ∈ rows, '\n' ∉ row) (hlength : rows.length = names.length) :
    ofLines (rows.map (dropEnd '\r')) = .error e ↔ FirstFault names rows e := by
  obtain ⟨r₁, r₂, r₃, r₄, r₅, rfl⟩ : ∃ r₁ r₂ r₃ r₄ r₅, rows = [r₁, r₂, r₃, r₄, r₅] := by
    match rows, hlength with
    | [r₁, r₂, r₃, r₄, r₅], _ => exact ⟨r₁, r₂, r₃, r₄, r₅, rfl⟩
  simp only [List.forall_mem_cons] at hrows
  obtain ⟨h₁, h₂, h₃, h₄, h₅, -⟩ := hrows
  have hnone : ¬FirstFault [] [] e := nofun
  simp only [List.map_cons, List.map_nil, ofLines, names, firstFault_cons_iff, hnone,
    readField_bind_eq_error_iff h₁, readField_bind_eq_error_iff h₂, readField_bind_eq_error_iff h₃,
    readField_bind_eq_error_iff h₄, readField_bind_eq_error_iff h₅]
  simp [pure, Except.pure]

theorem ofLines_of_length_ne {ls : List (List Char)} (h : ls.length ≠ names.length) :
    ofLines ls = if ls.length < names.length then .error (.tooFew ls.length)
      else .error (.tooMany ((ls.drop names.length).map String.ofList)) := by
  unfold ofLines
  split
  · exact absurd rfl h
  · rfl

theorem forall₂_isShown_iff {rows shown : List (List Char)} :
    List.Forall₂ IsShown rows shown ↔ rows.map (dropEnd '\r') = shown := by
  rw [← List.forall₂_eq_eq_eq, List.forall₂_map_left_iff]
  exact ⟨List.Forall₂.imp fun _ _ => isShown_iff.1, List.Forall₂.imp fun _ _ => isShown_iff.2⟩

/-- Lines are reported as they should be. -/
theorem ofLines_eq_error_iff {rows : List (List Char)} {e : MetricsError}
    (hrows : ∀ row ∈ rows, '\n' ∉ row) :
    ofLines (rows.map (dropEnd '\r')) = .error e ↔ IsDiagnosis rows e := by
  have hlines := rows.length_map (dropEnd '\r')
  rcases Nat.lt_trichotomy rows.length names.length with hlt | heq | hgt
  · rw [ofLines_of_length_ne (hlines ▸ hlt.ne), if_pos (hlines ▸ hlt), hlines]
    constructor
    · rintro ⟨⟩
      exact .tooFew hlt
    · intro h
      cases h with
      | tooFew => rfl
      | tooMany h => omega
      | fault h => omega
  · rw [ofLines_eq_error_iff_firstFault hrows heq]
    constructor
    · exact .fault heq
    · intro h
      cases h with
      | tooFew h => omega
      | tooMany h => omega
      | fault _ h => exact h
  · rw [ofLines_of_length_ne (hlines ▸ hgt.ne'), if_neg (hlines ▸ hgt.not_gt), ← List.map_drop]
    constructor
    · rintro ⟨⟩
      refine .tooMany hgt (forall₂_isShown_iff.2 ?_)
      simp [Function.comp_def]
    · intro h
      cases h with
      | tooFew h => omega
      | tooMany _ hextra =>
        rw [forall₂_isShown_iff.1 hextra]
        simp
      | fault h => omega

theorem FirstFault.exists_isFault {fields : List String} {rows : List (List Char)}
    {e : MetricsError} (h : FirstFault fields rows e) :
    ∃ field ∈ fields, ∃ row ∈ rows, IsFault field row e := by
  induction h with
  | here h => exact ⟨_, List.mem_cons_self, _, List.mem_cons_self, h⟩
  | later _ _ ih =>
    obtain ⟨field, hfield, row, hrow, h⟩ := ih
    exact ⟨field, List.mem_cons_of_mem _ hfield, row, List.mem_cons_of_mem _ hrow, h⟩

theorem IsDiagnosis.ne_notText {rows : List (List Char)} {e : MetricsError}
    (h : IsDiagnosis rows e) : e ≠ .notText := by
  cases h with
  | tooFew => nofun
  | tooMany => nofun
  | fault _ h =>
    obtain ⟨_, -, _, -, h⟩ := h.exists_isFault
    cases h <;> nofun

theorem IsDiagnosis.lt_length {rows : List (List Char)} {found : ℕ}
    (h : IsDiagnosis rows (.tooFew found)) : found < names.length := by
  cases h with
  | tooFew h => exact h
  | fault _ h =>
    obtain ⟨_, -, _, -, h⟩ := h.exists_isFault
    cases h

/-- Texts are reported by their lines. -/
theorem read_encode_eq_error_iff {text : List Char} {e : MetricsError} :
    read (encode text) = .error e ↔ ∃ rows, IsRows rows text ∧ IsDiagnosis rows e := by
  rw [read_encode]
  constructor
  · intro h
    obtain ⟨rows, hrows⟩ := exists_isRows text
    rw [hrows.lines_eq] at h
    exact ⟨rows, hrows, (ofLines_eq_error_iff hrows.not_mem).1 h⟩
  · rintro ⟨rows, hrows, h⟩
    rw [hrows.lines_eq]
    exact (ofLines_eq_error_iff hrows.not_mem).2 h

/-- What is not UTF-8 is reported as such, whatever else it is. -/
theorem read_eq_notText_iff {output : Bytes} :
    read output = .error .notText ↔ ¬∃ text, output = encode text := by
  constructor
  · rintro h ⟨text, rfl⟩
    obtain ⟨rows, -, hrows⟩ := read_encode_eq_error_iff.1 h
    exact hrows.ne_notText rfl
  · intro h
    cases hdecode : Text.decode? output with
    | none => rw [read, hdecode]
    | some text => exact absurd ⟨text, Text.decode?_eq_some_iff.1 hdecode⟩ h

/-- The values that are missed are the last ones. There are as many of them as lines are missing. -/
theorem message_of_read_eq_tooFew {output : Bytes} {found : ℕ}
    (h : read output = .error (.tooFew found)) :
    ∃ missing, missing <:+ names ∧ missing.length + found = names.length ∧
      (MetricsError.tooFew found).message = "expected " ++ natText names.length ++
        " fields but found " ++ natText found ++ "; missing " ++ quoteList missing := by
  have hlt : found < names.length := by
    by_cases htext : ∃ text, output = encode text
    · obtain ⟨text, rfl⟩ := htext
      obtain ⟨rows, -, hrows⟩ := read_encode_eq_error_iff.1 h
      exact hrows.lt_length
    · rw [read_eq_notText_iff.2 htext] at h
      cases h
  refine ⟨names.drop found, List.drop_suffix _ _, ?_, rfl⟩
  rw [List.length_drop, Nat.sub_add_cancel hlt.le]

/-- **The diagnosis of an output.** What is not UTF-8 is reported as such. A text is reported by
its lines: too few of them by their number, with the names of the last values as the missing ones,
too many by the lines after the fifth, as they are shown, and five by the first one that holds no
value. -/
theorem read_diagnosis :
    (∀ output, read output = .error .notText ↔ ¬∃ text, output = encode text) ∧
    (∀ text e, read (encode text) = .error e ↔ ∃ rows, IsRows rows text ∧ IsDiagnosis rows e) ∧
    (∀ field row, '\n' ∉ row → ((∃ e, IsFault field row e) ↔ ¬∃ value, IsLine value row)) ∧
    (∀ output found, read output = .error (.tooFew found) →
      ∃ missing, missing <:+ names ∧ missing.length + found = names.length ∧
        (MetricsError.tooFew found).message = "expected " ++ natText names.length ++
          " fields but found " ++ natText found ++ "; missing " ++ quoteList missing) ∧
    (∀ extra, (MetricsError.tooMany extra).message = "expected " ++ natText names.length ++
      " fields but found " ++ natText (names.length + extra.length) ++ "; extra " ++
        quoteList extra) :=
  ⟨fun _ => read_eq_notText_iff, fun _ _ => read_encode_eq_error_iff, fun _ _ => exists_isFault_iff,
    fun _ _ => message_of_read_eq_tooFew, fun _ => rfl⟩

/-- A blank line after the line feed that ends the fifth one is an extra line. -/
example : read (Text.bytesOf "1\n2\n3\n4\n5\n\r\n") = .error (.tooMany [""]) := by
  decide +kernel

end BenchSweep.Metrics
