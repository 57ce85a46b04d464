import BenchSweep.Csv
import BenchSweep.Proofs.Text.Split
import BenchSweep.Proofs.Text.Utf8
import Mathlib.Data.List.Basic

/-!
# Records without quotes

A field without commas, quotes and line ends is written as it is. A record of such fields is a line
that is split at its commas into the fields again, and a text of such records is split at its line
feeds into the lines. So the bytes determine the records.

## Scope

All fields of a table of results are plain: counts and ratios are numerals, metrics are numerals
that were read, and so are the names in the header. For these no reader of quotes is needed, and a
line can be split at its commas by anything that splits lines. Fields of any kind are the subject of
`BenchSweep.Proofs.Table.RoundTrip`.

## Main definitions

* `Csv.IsPlain`: a field without commas, quotes and line ends.
* `Csv.plainLine`: plain fields with commas between them.

## Main results

* `Csv.text_eq_of_isPlain`: the bytes of plain records.
* `Csv.splitOn_plainLine`: the fields of a plain line.
* `Csv.eq_of_text_eq`: plain records with the same bytes are the same.
-/

namespace BenchSweep

namespace Csv

open Text

/-- A field without commas, quotes and line ends. -/
def IsPlain (field : List Char) : Prop :=
  ',' ∉ field ∧ '"' ∉ field ∧ '\r' ∉ field ∧ '\n' ∉ field

/-- Plain fields with commas between them. -/
def plainLine (record : List String) : List Char :=
  [','].intercalate (record.map String.toList)

theorem needsQuotes_eq_false {field : List Char} (h : IsPlain field) {b : UInt8}
    (hb : b ∈ encode field) : needsQuotes b = false := by
  obtain ⟨c, hc, hbc⟩ := List.mem_flatMap.1 hb
  obtain ⟨hcomma, hquote, hreturn, hfeed⟩ := h
  rw [Bool.eq_false_iff]
  intro hneeds
  simp only [needsQuotes, Bool.or_eq_true, decide_eq_true_eq] at hneeds
  have heq (d : Char) (hd : c.toNat = d.toNat) : d ∈ field := Char.toNat_inj.1 hd ▸ hc
  obtain ((rfl | rfl) | rfl) | rfl := hneeds
  · exact hcomma (heq _ (toNat_eq_of_mem_utf8EncodeChar (by decide) hbc))
  · exact hquote (heq _ (toNat_eq_of_mem_utf8EncodeChar (by decide) hbc))
  · exact hreturn (heq _ (toNat_eq_of_mem_utf8EncodeChar (by decide) hbc))
  · exact hfeed (heq _ (toNat_eq_of_mem_utf8EncodeChar (by decide) hbc))

/-- A plain field is written byte by byte. -/
theorem flatten_fieldUnits {field : String} (h : IsPlain field.toList) :
    (fieldUnits field).flatten = bytesOf field := by
  have hany : (bytesOf field).any needsQuotes = false :=
    List.any_eq_false.2 fun b hb => by simp [needsQuotes_eq_false h hb]
  rw [fieldUnits, hany, if_neg Bool.false_ne_true, ← List.flatMap_def, List.flatMap_singleton']

/-- Plain fields with commas between them are written byte by byte. -/
theorem flatten_intercalate_fieldUnits {record : List String}
    (h : ∀ field ∈ record, IsPlain field.toList) :
    (List.intercalate [[44]] (record.map fieldUnits)).flatten = encode (plainLine record) := by
  have hfields : record.map (fun field => (fieldUnits field).flatten) = record.map bytesOf :=
    List.map_congr_left fun field hfield => flatten_fieldUnits (h field hfield)
  rw [flatten_intercalate, List.map_map, plainLine, encode, flatMap_intercalate, List.map_map]
  exact congrArg _ hfields

/-- A record of plain fields is a plain line with a line feed. -/
theorem line_of_isPlain {record : List String} (h : ∀ field ∈ record, IsPlain field.toList) :
    line record = encode (plainLine record ++ ['\n']) := by
  have hfeed : encode ['\n'] = [10] := by decide
  rw [line, units, List.flatten_append, flatten_intercalate_fieldUnits h, encode_append, hfeed]
  rfl

/-- **The bytes of plain records.** -/
theorem text_eq_of_isPlain {records : List (List String)}
    (h : ∀ record ∈ records, ∀ field ∈ record, IsPlain field.toList) :
    text records = encode ((records.map plainLine).flatMap (· ++ ['\n'])) := by
  induction records with
  | nil => rfl
  | cons record records ih =>
    obtain ⟨hrecord, hrecords⟩ := List.forall_mem_cons.1 h
    have ih := ih hrecords
    rw [text] at ih ⊢
    rw [List.flatMap_cons, ih, line_of_isPlain hrecord, List.map_cons, List.flatMap_cons,
      encode_append (plainLine record ++ _)]

theorem not_mem_plainLine {record : List String} (h : ∀ field ∈ record, IsPlain field.toList)
    {c : Char} (hc : c = '"' ∨ c = '\r' ∨ c = '\n') : c ∉ plainLine record := by
  intro hmem
  rcases mem_intercalate hmem with hmem | ⟨_, hpiece, hmem⟩
  · rw [List.mem_singleton.1 hmem] at hc
    revert hc
    decide
  · obtain ⟨field, hfield, rfl⟩ := List.mem_map.1 hpiece
    obtain ⟨-, hquote, hreturn, hfeed⟩ := h field hfield
    rcases hc with rfl | rfl | rfl <;> contradiction

/-- **The fields of a plain line are the pieces between its commas.** -/
theorem splitOn_plainLine {record : List String} (hne : record ≠ [])
    (h : ∀ field ∈ record, IsPlain field.toList) :
    splitOn ',' (plainLine record) = record.map String.toList :=
  splitOn_intercalate (by simpa using hne) (by simpa using fun field hf => (h field hf).1)

theorem count_plainLine {record : List String} (h : ∀ field ∈ record, IsPlain field.toList) :
    (plainLine record).count ',' = record.length - 1 := by
  rw [plainLine, count_intercalate (by simpa using fun field hf => (h field hf).1), List.length_map]

/-- **Plain records with the same bytes are the same.** -/
theorem eq_of_text_eq {records records' : List (List String)}
    (hne : ∀ record ∈ records, record ≠ []) (hne' : ∀ record ∈ records', record ≠ [])
    (h : ∀ record ∈ records, ∀ field ∈ record, IsPlain field.toList)
    (h' : ∀ record ∈ records', ∀ field ∈ record, IsPlain field.toList)
    (heq : text records = text records') : records = records' := by
  have hlines {records : List (List String)}
      (h : ∀ record ∈ records, ∀ field ∈ record, IsPlain field.toList) :
      ∀ line ∈ records.map plainLine, '\n' ∉ line := by
    rintro line hline
    obtain ⟨record, hrecord, rfl⟩ := List.mem_map.1 hline
    exact not_mem_plainLine (h record hrecord) (.inr (.inr rfl))
  have hsplit {records : List (List String)} (hne : ∀ record ∈ records, record ≠ [])
      (h : ∀ record ∈ records, ∀ field ∈ record, IsPlain field.toList) :
      (records.map plainLine).map (splitOn ',') = records.map (List.map String.toList) := by
    rw [List.map_map]
    exact List.map_congr_left fun record hrecord =>
      splitOn_plainLine (hne record hrecord) (h record hrecord)
  rw [text_eq_of_isPlain h, text_eq_of_isPlain h'] at heq
  have heq := congrArg (splitOn '\n') (encode_injective heq)
  rw [splitOn_flatMap_concat (hlines h), splitOn_flatMap_concat (hlines h')] at heq
  have heq := congrArg (List.map (splitOn ',')) (List.append_cancel_right heq)
  rw [hsplit hne h, hsplit hne' h'] at heq
  exact List.map_injective_iff.2 (List.map_injective_iff.2 fun _ _ => String.toList_injective) heq

end Csv

end BenchSweep
