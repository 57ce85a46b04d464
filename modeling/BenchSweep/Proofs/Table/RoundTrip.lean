import BenchSweep.Proofs.Csv.Delivery
import BenchSweep.Proofs.Csv.Grammar
import BenchSweep.Proofs.Csv.Plain

/-!
# Tables are read back

Whatever the metrics of a table hold, its text is a text of the grammar of comma-separated records,
and its fields stand between quotes exactly if they need to. So the text is read as the header and
the records of the rows, and it determines them.

## Why the quotes are part of what is read

A reader that drops the quotes gets the same fields from a text with quotes and from one without, as
long as these are not needed. Here the reader reports for each field whether it stood between
quotes, and the theorem says of each field that it does so exactly if it must. So the text is fixed
byte by byte, and the fields with it.

## Scope

A receiver that never fails is assumed, and any such receiver will do. What happens when deliveries
fail is the subject of `BenchSweep.Proofs.Table.Room` for a fixed amount of room, and of
`BenchSweep.Proofs.Save.Atomic` for files.

## Main definitions

* `Csv.Field.ofText`: a field as it stands in a text that was written.

## Main results

* `Csv.isText_text`: the bytes of records are a text of the grammar.
* `Table.write_reads_back`: what a receiver gets of a table, and what is read from it.
-/

namespace BenchSweep

open Text (Bytes bytesOf encode)

namespace Csv

/-- A field as it stands in a text that was written: between quotes if it holds a comma, a quote or
the end of a line. -/
def Field.ofText (s : String) : Field where
  isQuoted := ',' ∈ s.toList ∨ '"' ∈ s.toList ∨ '\r' ∈ s.toList ∨ '\n' ∈ s.toList
  bytes := bytesOf s

theorem Field.ofText_injective : Function.Injective Field.ofText := fun _ _ h =>
  String.toList_injective (Text.encode_injective (congrArg Field.bytes h))

/-- The bytes that make a field be quoted are those of the four characters. -/
theorem any_needsQuotes_iff {s : List Char} :
    (encode s).any needsQuotes = true ↔ ',' ∈ s ∨ '"' ∈ s ∨ '\r' ∈ s ∨ '\n' ∈ s := by
  constructor
  · intro h
    by_contra hplain
    simp only [not_or] at hplain
    obtain ⟨b, hb, hneeds⟩ := List.any_eq_true.1 h
    rw [needsQuotes_eq_false hplain hb] at hneeds
    cases hneeds
  · intro h
    have hany {c : Char} {b : UInt8} (hc : String.utf8EncodeChar c = [b])
        (hb : needsQuotes b = true) (hmem : c ∈ s) : (encode s).any needsQuotes = true :=
      List.any_eq_true.2 ⟨b, List.mem_flatMap.2 ⟨c, hmem, hc ▸ List.mem_singleton_self b⟩, hb⟩
    rcases h with h | h | h | h
    · exact hany (b := 44) (by decide) (by decide) h
    · exact hany (b := 34) (by decide) (by decide) h
    · exact hany (b := 13) (by decide) (by decide) h
    · exact hany (b := 10) (by decide) (by decide) h

theorem isBody_flatMap_quotedUnit (bytes : Bytes) : IsBody bytes (bytes.flatMap quotedUnit) := by
  induction bytes with
  | nil => exact .nil
  | cons b bytes ih =>
    rw [List.flatMap_cons, quotedUnit]
    split
    next hb => exact hb ▸ .quote ih
    next hb => exact .other hb ih

/-- A field is written as a field of the grammar. -/
theorem isField_flatten_fieldUnits (s : String) :
    IsField (.ofText s) (fieldUnits s).flatten := by
  rw [fieldUnits]
  split
  next hany =>
    have hquoted : Field.ofText s = ⟨true, bytesOf s⟩ := by
      rw [Field.ofText, decide_eq_true (any_needsQuotes_iff.1 hany)]
    rw [hquoted, List.flatten_cons, List.flatten_append, ← List.flatMap_def]
    exact .quoted (isBody_flatMap_quotedUnit _)
  next hany =>
    have hbare : Field.ofText s = ⟨false, bytesOf s⟩ := by
      rw [Field.ofText, decide_eq_false (mt any_needsQuotes_iff.2 hany)]
    rw [hbare, ← List.flatMap_def, List.flatMap_singleton']
    refine .bare fun b hb => ?_
    have hneeds := List.any_eq_false.1 (Bool.eq_false_iff.2 hany) b hb
    simp only [needsQuotes, Bool.or_eq_true, decide_eq_true_eq, not_or] at hneeds
    obtain ⟨⟨⟨hcomma, hquote⟩, -⟩, hfeed⟩ := hneeds
    exact ⟨hcomma, hquote, hfeed⟩

/-- A record that is not empty is written as a line of the grammar. -/
theorem isRecord_line {record : List String} (hne : record ≠ []) :
    IsRecord (record.map .ofText) (line record) := by
  refine ⟨mt List.map_eq_nil_iff.1 hne, record.map fun s => (fieldUnits s).flatten, ?_, ?_⟩
  · rw [List.forall₂_map_left_iff, List.forall₂_map_right_iff, List.forall₂_same]
    exact fun s _ => isField_flatten_fieldUnits s
  · rw [line, units, List.flatten_append, Text.flatten_intercalate, List.map_map]
    rfl

/-- **The bytes of records are a text of the grammar.** -/
theorem isText_text {records : List (List String)} (hne : ∀ record ∈ records, record ≠ []) :
    IsText (records.map (·.map .ofText)) (text records) := by
  refine ⟨records.map line, ?_, List.flatMap_def⟩
  rw [List.forall₂_map_left_iff, List.forall₂_map_right_iff, List.forall₂_same]
  exact fun record hrecord => isRecord_line (hne record hrecord)

end Csv

namespace Table

theorem isText_text (t : Table) : Csv.IsText (t.records.map (·.map .ofText)) t.text :=
  Csv.isText_text fun _ => ne_nil_of_mem_records

/-- A table is written into any receiver that takes all bytes. -/
theorem exists_write_eq_ok {σ : Type} {sink : Csv.Sink σ} {received : σ → Bytes}
    (hsink : ∀ bytes s, ∃ s', sink bytes s = .ok () s' ∧ received s' = received s ++ bytes)
    (t : Table) (s : σ) :
    ∃ s', t.write sink s = .ok () s' ∧ received s' = received s ++ t.text := by
  have hkeeps : sink.Keeps (fun done s' => received s' = received s ++ done) fun _ => False := by
    intro done bytes s₁ hs₁
    obtain ⟨s₂, hok, hs₂⟩ := hsink bytes s₁
    rw [hok]
    change received s₂ = received s ++ (done ++ bytes)
    rw [hs₂, hs₁, List.append_assoc]
  have hstart : received s = received s ++ [] := (List.append_nil _).symm
  have hlands := lands_write hkeeps hstart t
  rcases hlands.cases with ⟨_, s', hok, hs'⟩ | ⟨_, _, _, hfalse⟩
  · exact ⟨s', hok, hs'⟩
  · exact hfalse.elim

/-- **A table is read back from its text.** A receiver that takes all bytes gets the whole text.
The text is read as the header and the records of the rows, each of eight fields, and as nothing
else; a field stands between quotes exactly if it holds a comma, a quote or the end of a line.
Tables with the same text have the same records. -/
theorem write_reads_back {σ : Type} {sink : Csv.Sink σ} {received : σ → Bytes}
    (hsink : ∀ bytes s, ∃ s', sink bytes s = .ok () s' ∧ received s' = received s ++ bytes)
    (t : Table) (s : σ) :
    (∃ s', t.write sink s = .ok () s' ∧ received s' = received s ++ t.text) ∧
    Csv.read t.text = some ((header :: t.rows.map Row.record).map (·.map Csv.Field.ofText)) ∧
    (∀ records, Csv.IsText records t.text →
      records = (header :: t.rows.map Row.record).map (·.map Csv.Field.ofText)) ∧
    (∀ record ∈ header :: t.rows.map Row.record, record.length = 8) ∧
    ∀ t' : Table, t'.text = t.text → t'.records = t.records := by
  refine ⟨exists_write_eq_ok hsink t s, Csv.read_eq_some_iff.2 t.isText_text,
    fun records h => h.unique t.isText_text, fun record h => length_of_mem_records h, ?_⟩
  intro t' htext
  have hfields := (htext ▸ t'.isText_text).unique t.isText_text
  exact List.map_injective_iff.2 (List.map_injective_iff.2 Csv.Field.ofText_injective) hfields

/-- Metrics with a comma, quotes, nothing, a line end and a character of two bytes. -/
theorem write_reads_back_quoted :
    let t : Table := ⟨[⟨⟨0, 2, 3, ⟨0x8000000000000000⟩⟩, ⟨"a,b", "\"say\"", "", "\r\n", "é"⟩⟩]⟩
    let sink : Csv.Sink (List Bytes) := fun bytes pieces => .ok () (pieces ++ [bytes])
    (∀ bytes s, ∃ s', sink bytes s = .ok () s' ∧ s'.flatten = s.flatten ++ bytes) ∧
    (∃ s', t.write sink [] = .ok () s' ∧
      s'.flatten = bytesOf ("num_servers,num_clients,ratio,num_writes,num_reads,time_taken," ++
        "time_to_add_a_node,time_to_remove_a_node\n" ++
        "2,3,-0.0,\"a,b\",\"\"\"say\"\"\",,\"\r\n\",é\n")) ∧
    (Csv.read t.text).map (·[1]?) = some (some
      [⟨false, [50]⟩, ⟨false, [51]⟩, ⟨false, [45, 48, 46, 48]⟩, ⟨true, [97, 44, 98]⟩,
        ⟨true, [34, 115, 97, 121, 34]⟩, ⟨false, []⟩, ⟨true, [13, 10]⟩, ⟨false, [195, 169]⟩]) ∧
    ∀ t' : Table, t'.text = t.text → t'.records = t.records := by
  intro t sink
  have hsink : ∀ bytes s, ∃ s', sink bytes s = .ok () s' ∧ s'.flatten = s.flatten ++ bytes :=
    fun bytes s => ⟨s ++ [bytes], rfl, List.flatten_concat⟩
  obtain ⟨⟨s', hok, hs'⟩, hread, -, -, hrecords⟩ := write_reads_back hsink t []
  refine ⟨hsink, ⟨s', hok, hs'.trans ?_⟩, ?_, hrecords⟩
  · decide +kernel
  · rw [hread]
    decide +kernel

end Table

end BenchSweep
