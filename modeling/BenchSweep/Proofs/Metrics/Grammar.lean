import BenchSweep.Metrics
import BenchSweep.Proofs.Except
import BenchSweep.Proofs.Text.Blank
import BenchSweep.Proofs.Text.Split
import BenchSweep.Proofs.Text.Utf8

/-!
# The grammar of metrics

The output of a benchmark is read if it is the encoding of five lines, each with a numeral between
blanks, and of nothing else but one line feed after the last of them. A carriage return is a blank,
so both kinds of line ends are covered. Reading undoes printing: numerals that are printed, one on
each line, are read again as they are.

## Why the lines are given and not found

An output is described by putting it together: five lines with a value on each, line feeds between
them, and at most one at the end. Nothing is said of how a line is found in the output, or trimmed.
The value on a line is determined by it, since a numeral neither starts nor ends with a blank, so
the output determines the metrics.

## Scope

Values are kept as they stand on their lines, without the blanks around them, and are not turned
into numbers. The numerals are those of `BenchSweep.Proofs.Number.Grammar`, among them infinities
and the word for no number. What is reported of all other outputs is the subject of
`BenchSweep.Proofs.Metrics.Diagnosis`.

## Main definitions

* `Metrics.IsLine`: a line with a value on it.
* `Metrics.IsOutput`: the grammar.
* `Metrics.printed`: the values, one on each line.

## Main results

* `Metrics.read_eq_ok_iff`: the outputs that are read.
* `Metrics.read_printed`: printed numerals are read again.
* `Metrics.length_eq_five_of_read`: no other number of lines is read.
-/

namespace BenchSweep.Metrics

open Number (IsNumeral)
open Text (Bytes IsBlanks encode isBlank splitOn trim)

/-! ### The grammar -/

/-- A line holds a value if the value stands on it between blanks, and the blanks do not end the
line. -/
def IsLine (value line : List Char) : Prop :=
  ∃ first last, line = first ++ (value ++ last) ∧ (IsBlanks first ∧ '\n' ∉ first) ∧
    (IsBlanks last ∧ '\n' ∉ last) ∧ IsNumeral value

/-- The outputs that hold the values of `m`. -/
def IsOutput (m : Metrics) (output : Bytes) : Prop :=
  ∃ rows last, output = encode (['\n'].intercalate rows ++ last) ∧
    List.Forall₂ IsLine (m.values.map String.toList) rows ∧ (last = [] ∨ last = ['\n'])

/-- The values of `m` with line ends between them, and `last` after the last one. -/
def printed (lineEnd last : List Char) (m : Metrics) : Bytes :=
  encode (lineEnd.intercalate (m.values.map String.toList) ++ last)

/-! ### Line ends -/

/-- What is dropped at the end. -/
theorem exists_eq_dropEnd_append (c : Char) (s : List Char) :
    ∃ last, s = dropEnd c s ++ last ∧ (last = [] ∨ last = [c]) := by
  unfold dropEnd
  split
  · next h => exact ⟨[c], (List.dropLast_append_getLast? c h).symm, .inr rfl⟩
  · exact ⟨[], (List.append_nil s).symm, .inl rfl⟩

theorem dropEnd_append_self (c : Char) (s : List Char) : dropEnd c (s ++ [c]) = s := by
  rw [dropEnd, if_pos List.getLast?_concat, List.dropLast_concat]

/-- A carriage return is a blank like others. -/
theorem trim_dropEnd (line : List Char) : trim (dropEnd '\r' line) = trim line := by
  obtain ⟨last, hline, hlast⟩ := exists_eq_dropEnd_append '\r' line
  have hblanks : IsBlanks last := by
    rcases hlast with rfl | rfl
    · exact Text.isBlanks_nil
    · exact fun c hc => List.mem_singleton.1 hc ▸ rfl
  conv_rhs => rw [hline]
  exact (Text.trim_append_of_isBlanks _ hblanks).symm

/-! ### Lines -/

/-- Lines are found again, with at most one line feed after the last one. An empty line at the end
is one only if a line feed follows it. -/
theorem lines_intercalate {rows : List (List Char)} {last : List Char}
    (hrows : ∀ row ∈ rows, '\n' ∉ row) (hne : ['\n'].intercalate rows ≠ [])
    (hlast : last = ['\n'] ∨ last = [] ∧ rows.getLast? ≠ some []) :
    lines (['\n'].intercalate rows ++ last) = rows.map (dropEnd '\r') := by
  have hrows' : rows ≠ [] := by
    rintro rfl
    exact hne rfl
  have hbody : dropEnd '\n' (['\n'].intercalate rows ++ last) = ['\n'].intercalate rows := by
    rcases hlast with rfl | ⟨rfl, hlast⟩
    · exact dropEnd_append_self _ _
    · obtain ⟨row, hrow⟩ := Option.ne_none_iff_exists'.1 (mt List.getLast?_eq_none_iff.1 hrows')
      have hfeed : row.getLast? ≠ some '\n' :=
        fun h => hrows row (List.mem_of_getLast? hrow) (List.mem_of_getLast? h)
      have hend := Text.getLast?_intercalate '\n' hrow (fun h => hlast (h ▸ hrow))
      rw [List.append_nil, dropEnd, if_neg (hend ▸ hfeed)]
  rw [lines, hbody, if_neg hne, Text.splitOn_intercalate hrows' hrows]

/-! ### Values -/

theorem readField_eq_ok_iff {field value : String} {line : List Char} :
    readField field line = .ok value ↔ trim line = value.toList ∧ IsNumeral value.toList := by
  rw [readField]
  constructor
  · intro h
    split at h
    · cases h
    split at h
    · next x hx =>
      cases h
      rw [String.toList_ofList]
      exact ⟨rfl, Number.isNumeral_iff.2 ⟨x, hx⟩⟩
    · cases h
  · rintro ⟨htrim, hvalue⟩
    obtain ⟨x, hx⟩ := Number.isNumeral_iff.1 hvalue
    rw [htrim, if_neg hvalue.ne_nil, hx]
    exact congrArg Except.ok String.ofList_toList

/-- Five lines are read, each as the value on it. -/
theorem ofLines_eq_ok_iff {rows : List (List Char)} {m : Metrics} :
    ofLines rows = .ok m ↔
      List.Forall₂ (fun value row => trim row = value.toList ∧ IsNumeral value.toList) m.values
        rows := by
  constructor
  · intro h
    unfold ofLines at h
    split at h
    · obtain ⟨writes, hwrites, h⟩ := exists_of_bind_eq_ok h
      obtain ⟨reads, hreads, h⟩ := exists_of_bind_eq_ok h
      obtain ⟨time, htime, h⟩ := exists_of_bind_eq_ok h
      obtain ⟨addTime, hadd, h⟩ := exists_of_bind_eq_ok h
      obtain ⟨removeTime, hremove, h⟩ := exists_of_bind_eq_ok h
      cases h
      exact .cons (readField_eq_ok_iff.1 hwrites) <| .cons (readField_eq_ok_iff.1 hreads) <|
        .cons (readField_eq_ok_iff.1 htime) <| .cons (readField_eq_ok_iff.1 hadd) <|
        .cons (readField_eq_ok_iff.1 hremove) .nil
    · split at h <;> cases h
  · rintro (_ | ⟨h₁, _ | ⟨h₂, _ | ⟨h₃, _ | ⟨h₄, _ | ⟨h₅, _ | _⟩⟩⟩⟩⟩)
    rw [ofLines, readField_eq_ok_iff.2 h₁, readField_eq_ok_iff.2 h₂, readField_eq_ok_iff.2 h₃,
      readField_eq_ok_iff.2 h₄, readField_eq_ok_iff.2 h₅]
    rfl

/-- What is found on a line, with its carriage return or without it. -/
theorem isLine_iff {value line : List Char} (hline : '\n' ∉ line) :
    IsLine value line ↔ trim (dropEnd '\r' line) = value ∧ IsNumeral value := by
  rw [trim_dropEnd]
  constructor
  · rintro ⟨first, last, rfl, ⟨hfirst, -⟩, ⟨hlast, -⟩, hvalue⟩
    exact ⟨Text.trim_append hfirst hlast fun c hc =>
      isBlank_of_isNumeralChar (hvalue.isNumeralChar_of_mem hc), hvalue⟩
  · rintro ⟨rfl, hvalue⟩
    obtain ⟨first, last, heq, hfirst, hlast⟩ := Text.exists_eq_append_trim line
    refine ⟨first, last, heq, ⟨hfirst, fun h => hline ?_⟩, ⟨hlast, fun h => hline ?_⟩, hvalue⟩
    · rw [heq]
      exact List.mem_append_left _ h
    · rw [heq]
      exact List.mem_append_right _ (List.mem_append_right _ h)

theorem not_mem_of_isNumeral {value : List Char} (h : IsNumeral value) : '\n' ∉ value :=
  fun hc => absurd (h.isNumeralChar_of_mem hc) (by decide)

theorem IsLine.not_mem {value line : List Char} (h : IsLine value line) : '\n' ∉ line := by
  obtain ⟨first, last, rfl, ⟨-, hfirst⟩, ⟨-, hlast⟩, hvalue⟩ := h
  simp only [List.mem_append, not_or]
  exact ⟨hfirst, not_mem_of_isNumeral hvalue, hlast⟩

theorem IsLine.ne_nil {value line : List Char} (h : IsLine value line) : line ≠ [] := by
  obtain ⟨first, last, rfl, -, -, hvalue⟩ := h
  exact List.append_ne_nil_of_right_ne_nil _ (List.append_ne_nil_of_left_ne_nil hvalue.ne_nil _)

theorem forall₂_isLine_iff {values rows : List (List Char)} (hrows : ∀ row ∈ rows, '\n' ∉ row) :
    List.Forall₂ IsLine values rows ↔
      List.Forall₂ (fun value row => trim row = value ∧ IsNumeral value) values
        (rows.map (dropEnd '\r')) := by
  rw [List.forall₂_map_right_iff]
  induction rows generalizing values with
  | nil => rw [List.forall₂_nil_right_iff, List.forall₂_nil_right_iff]
  | cons row rows ih =>
    obtain ⟨hrow, hrows⟩ := List.forall_mem_cons.1 hrows
    rw [List.forall₂_cons_right_iff, List.forall₂_cons_right_iff]
    simp only [isLine_iff hrow, ih hrows]

theorem of_forall₂_isLine {values rows : List (List Char)} (h : List.Forall₂ IsLine values rows) :
    ∀ row ∈ rows, '\n' ∉ row ∧ row ≠ [] := by
  induction h with
  | nil => exact fun _ hrow => absurd hrow List.not_mem_nil
  | cons h _ ih => exact List.forall_mem_cons.2 ⟨⟨h.not_mem, h.ne_nil⟩, ih⟩

theorem isNumeral_of_forall₂_isLine {values rows : List (List Char)}
    (h : List.Forall₂ IsLine values rows) : ∀ value ∈ values, IsNumeral value := by
  induction h with
  | nil => exact fun _ hvalue => absurd hvalue List.not_mem_nil
  | cons h _ ih =>
    obtain ⟨-, -, -, -, -, hvalue⟩ := h
    exact List.forall_mem_cons.2 ⟨hvalue, ih⟩

/-! ### Outputs -/

theorem read_encode (text : List Char) : read (encode text) = ofLines (lines text) := by
  rw [read, Text.decode?_eq_some_iff.2 rfl]

theorem ofLines_lines_eq_ok_iff {text : List Char} {m : Metrics} :
    ofLines (lines text) = .ok m ↔
      ∃ rows last, text = ['\n'].intercalate rows ++ last ∧
        List.Forall₂ IsLine (m.values.map String.toList) rows ∧ (last = [] ∨ last = ['\n']) := by
  have hvalues (rows : List (List Char)) (hrows : ∀ row ∈ rows, '\n' ∉ row) :
      ofLines (rows.map (dropEnd '\r')) = .ok m ↔
        List.Forall₂ IsLine (m.values.map String.toList) rows := by
    rw [ofLines_eq_ok_iff, forall₂_isLine_iff hrows, List.forall₂_map_left_iff]
  constructor
  · intro h
    obtain ⟨last, htext, hlast⟩ := exists_eq_dropEnd_append '\n' text
    rw [lines] at h
    split at h
    · cases h
    refine ⟨splitOn '\n' (dropEnd '\n' text), last, ?_, ?_, hlast⟩
    · rwa [Text.intercalate_splitOn]
    · exact (hvalues _ fun row => Text.not_mem_of_mem_splitOn).1 h
  · rintro ⟨rows, last, rfl, hrows, hlast⟩
    have hmem := of_forall₂_isLine hrows
    have hlength : rows.length = 5 := hrows.length_eq.symm
    obtain ⟨row, hrow⟩ : ∃ row, rows.getLast? = some row :=
      ⟨_, List.getLast?_eq_some_getLast (List.ne_nil_of_length_eq_add_one hlength)⟩
    have hrow_ne := (hmem row (List.mem_of_getLast? hrow)).2
    have hend : rows.getLast? ≠ some [] := fun h => hrow_ne (Option.some.inj (hrow.symm.trans h))
    rw [lines_intercalate (fun row h => (hmem row h).1) (Text.intercalate_ne_nil hrow hrow_ne)
      (hlast.symm.imp_right fun h => ⟨h, hend⟩)]
    exact (hvalues rows fun row h => (hmem row h).1).2 hrows

/-- The outputs that are read are those of the grammar. -/
theorem read_eq_ok_iff {output : Bytes} {m : Metrics} :
    read output = .ok m ↔ IsOutput m output := by
  constructor
  · intro h
    unfold read at h
    split at h
    · cases h
    next text htext =>
    obtain ⟨rows, last, rfl, hrows, hlast⟩ := ofLines_lines_eq_ok_iff.1 h
    exact ⟨rows, last, Text.decode?_eq_some_iff.1 htext, hrows, hlast⟩
  · rintro ⟨rows, last, rfl, hrows, hlast⟩
    rw [read_encode]
    exact ofLines_lines_eq_ok_iff.2 ⟨rows, last, rfl, hrows, hlast⟩

theorem isNumeral_of_read {output : Bytes} {m : Metrics} (h : read output = .ok m) :
    ∀ value ∈ m.values, IsNumeral value.toList := by
  obtain ⟨rows, -, -, hrows, -⟩ := read_eq_ok_iff.1 h
  exact fun value hvalue => isNumeral_of_forall₂_isLine hrows _ (List.mem_map_of_mem hvalue)

/-! ### Printing -/

/-- The line ends that are read. -/
def IsLineEnd (lineEnd : List Char) : Prop :=
  lineEnd = ['\n'] ∨ lineEnd = ['\r', '\n']

/-- A line end is a line feed with blanks before it. -/
theorem IsLineEnd.exists_eq {lineEnd : List Char} (h : IsLineEnd lineEnd) :
    ∃ blanks, lineEnd = blanks ++ ['\n'] ∧ IsBlanks blanks ∧ '\n' ∉ blanks := by
  rcases h with rfl | rfl
  · exact ⟨[], rfl, Text.isBlanks_nil, List.not_mem_nil⟩
  · exact ⟨['\r'], rfl, fun c hc => List.mem_singleton.1 hc ▸ rfl, by decide⟩

/-- Printed values are lines, with the blanks of the line ends on them. -/
theorem exists_rows_of_printed {values : List (List Char)} (hne : values ≠ [])
    (hvalues : ∀ value ∈ values, IsNumeral value) {lineEnd last : List Char}
    (hend : IsLineEnd lineEnd) (hlast : last = [] ∨ last = lineEnd) :
    ∃ rows feed, lineEnd.intercalate values ++ last = ['\n'].intercalate rows ++ feed ∧
      List.Forall₂ IsLine values rows ∧ (feed = [] ∨ feed = ['\n']) := by
  obtain ⟨blanks, rfl, hblanks⟩ := hend.exists_eq
  have hnil : IsBlanks [] ∧ '\n' ∉ ([] : List Char) := ⟨Text.isBlanks_nil, List.not_mem_nil⟩
  -- the blanks of a line end belong to the line that it ends
  induction values with
  | nil => exact absurd rfl hne
  | cons value values ih =>
    obtain ⟨hvalue, hvalues⟩ := List.forall_mem_cons.1 hvalues
    cases values with
    | nil =>
      rcases hlast with rfl | rfl
      · exact ⟨[value], [], rfl, .cons ⟨[], [], by simp, hnil, hnil, hvalue⟩ .nil, .inl rfl⟩
      · exact ⟨[value ++ blanks], ['\n'], by simp,
          .cons ⟨[], blanks, rfl, hnil, hblanks, hvalue⟩ .nil, .inr rfl⟩
    | cons second later =>
      obtain ⟨rows, feed, heq, hrows, hfeed⟩ := ih (List.cons_ne_nil _ _) hvalues
      have hrows_ne : rows ≠ [] := by
        rintro rfl
        cases hrows
      refine ⟨(value ++ blanks) :: rows, feed, ?_,
        .cons ⟨[], blanks, rfl, hnil, hblanks, hvalue⟩ hrows, hfeed⟩
      rw [List.intercalate_cons_cons, List.intercalate_cons_of_ne_nil hrows_ne, List.append_assoc,
        heq]
      simp only [List.append_assoc]

/-- Numerals that are printed are read again. -/
theorem read_printed {m : Metrics} (hm : ∀ value ∈ m.values, IsNumeral value.toList)
    {lineEnd last : List Char} (hend : IsLineEnd lineEnd) (hlast : last = [] ∨ last = lineEnd) :
    read (printed lineEnd last m) = .ok m := by
  obtain ⟨rows, feed, heq, hrows, hfeed⟩ :=
    exists_rows_of_printed (List.cons_ne_nil _ _) (List.forall_mem_map.2 hm) hend hlast
  exact read_eq_ok_iff.2 ⟨rows, feed, congrArg encode heq, hrows, hfeed⟩

/-- Five lines are read, and no other number of lines. -/
theorem length_eq_five_of_read {rows : List (List Char)} {last : List Char} {m : Metrics}
    (hrows : ∀ row ∈ rows, '\n' ∉ row)
    (hlast : last = ['\n'] ∨ last = [] ∧ rows.getLast? ≠ some [])
    (h : read (encode (['\n'].intercalate rows ++ last)) = .ok m) : rows.length = 5 := by
  rw [read_encode] at h
  by_cases hne : ['\n'].intercalate rows = []
  · -- one empty line is no line
    rcases hlast with rfl | ⟨rfl, -⟩ <;> rw [hne] at h <;> cases h
  · rw [lines_intercalate hrows hne hlast] at h
    have hlength := (ofLines_eq_ok_iff.1 h).length_eq
    rw [List.length_map] at hlength
    exact hlength.symm

/-- **The outputs of five numerals.** Exactly the outputs of the grammar are read, as the values
that stand on their lines. So numerals that are printed with either line end are read again, the
values of an output that was read are read again when they are printed, and no output with another
number of lines than five is read. -/
theorem read_accepts_grammar :
    (∀ output m, read output = .ok m ↔ IsOutput m output) ∧
    (∀ m lineEnd last, (∀ value ∈ m.values, IsNumeral value.toList) → IsLineEnd lineEnd →
      (last = [] ∨ last = lineEnd) → read (printed lineEnd last m) = .ok m) ∧
    (∀ output m lineEnd last, read output = .ok m → IsLineEnd lineEnd →
      (last = [] ∨ last = lineEnd) → read (printed lineEnd last m) = .ok m) ∧
    (∀ rows last m, (∀ row ∈ rows, '\n' ∉ row) →
      (last = ['\n'] ∨ last = [] ∧ rows.getLast? ≠ some []) →
      read (encode (['\n'].intercalate rows ++ last)) = .ok m → rows.length = 5) :=
  ⟨fun _ _ => read_eq_ok_iff, fun _ _ _ hm => read_printed hm,
    fun _ _ _ _ h => read_printed (isNumeral_of_read h), fun _ _ _ => length_eq_five_of_read⟩

/-- A carriage return alone and a line separator are blanks on a line. -/
example : read (Text.bytesOf "5.\n\r\u2028-.5\r\n+Inf\r\r\n1e-3\nnan\r") =
    .ok ⟨"5.", "-.5", "+Inf", "1e-3", "nan"⟩ := by
  decide +kernel

example : read (Text.bytesOf "1\n2\n3\n4\ne5\n") =
    .error (.notNumber "time_to_remove_a_node" "e5") := by
  decide +kernel

end BenchSweep.Metrics
