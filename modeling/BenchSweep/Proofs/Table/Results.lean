import BenchSweep.Proofs.Csv.Delivery
import BenchSweep.Proofs.Csv.Plain
import BenchSweep.Proofs.Metrics.Grammar
import BenchSweep.Proofs.Number.Literal
import BenchSweep.Proofs.Number.Numeral
import BenchSweep.Proofs.Sweep.Schedule

/-!
# The file of results determines the sweep

Counts, ratios and metrics are numerals, so no field of a table needs quotes, and every row is a
line that is split at its commas into its fields again. The counts and the ratio of a point are read
back from their texts, with the sign of a zero, and the metrics stand as they were printed. So the
bytes of a table tell which points were swept, in which order, and what was measured there.

## Why the metrics come from outputs

The metrics in a table are texts, and a text with a comma in it could be taken for two fields. In a
sweep they are what was read from the outputs of commands, so they are numerals. The hypothesis is
therefore that each point has an output that was read as its metrics, which is what a sweep
provides, and it is not a condition on characters.

## Why the lines are split at commas

The reader of quoted fields is not needed, as no field has quotes. So a line is read by splitting
it, which is what people and simple tools do, and the theorem says that they get the fields. Whoever
reads quotes as well gets the same (`BenchSweep.Proofs.Table.RoundTrip`).

## Scope

The grid has to be one that the check accepts, so that its ratios are numbers. A grid without points
has a file with the header only. Two sweeps with the same file have the same points and, at these,
the same metrics; the rest of their configurations may differ.

## Main definitions

* `Grid.table`: the table of a grid whose points have all run.

## Main results

* `Metrics.isPlain_of_read`: metrics need no quotes.
* `Grid.table_text`: the lines of the file, and what is read back from them.
-/

namespace BenchSweep

open Csv (IsPlain plainLine)
open Number (Binary64 countText decimal isNumeralChar readBinary64 readCount)
open Text (Bytes encode splitOn)

/-! ### Fields -/

/-- A numeral needs no quotes. -/
theorem isPlain_of_isNumeralChar {s : List Char} (h : ∀ c ∈ s, isNumeralChar c = true) :
    IsPlain s :=
  ⟨fun hc => absurd (h _ hc) (by decide), fun hc => absurd (h _ hc) (by decide),
    fun hc => absurd (h _ hc) (by decide), fun hc => absurd (h _ hc) (by decide)⟩

theorem isPlain_of_readBinary64 {s : List Char} {x : Binary64} (h : readBinary64 s = .ok x) :
    IsPlain s :=
  isPlain_of_isNumeralChar fun _ => Number.isNumeralChar_of_mem h

theorem isPlain_countText (n : UInt64) : IsPlain (countText n).toList := by
  rw [countText, Number.natText, String.toList_ofList]
  exact isPlain_of_isNumeralChar fun _ hc =>
    Number.isNumeralChar_of_isDigit (Number.isDigit_of_mem_decimal hc)

theorem readCount_countText (n : UInt64) : readCount (countText n).toList = .ok n := by
  rw [countText, Number.natText, String.toList_ofList, Number.readCount_decimal]

namespace Metrics

/-- Metrics are numerals, so they need no quotes. -/
theorem isPlain_of_read {output : Bytes} {m : Metrics} (h : read output = .ok m) :
    ∀ value ∈ m.values, IsPlain value.toList :=
  fun _ hvalue => isPlain_of_isNumeralChar fun _ =>
    (isNumeral_of_read h _ hvalue).isNumeralChar_of_mem

theorem values_injective : Function.Injective values := by
  rintro ⟨_, _, _, _, _⟩ ⟨_, _, _, _, _⟩ h
  simpa [values] using h

end Metrics

/-! ### Rows -/

namespace Row

/-- A row that needs no quotes and whose ratio is a number. -/
structure IsReadable (r : Row) : Prop where
  isFinite_ratio : r.point.ratio.isFinite = true
  isPlain_values : ∀ value ∈ r.metrics.values, IsPlain value.toList

variable {r r' : Row}

theorem IsReadable.isPlain_record (h : r.IsReadable) :
    ∀ field ∈ r.record, IsPlain field.toList := by
  have hratio : IsPlain r.point.ratio.ratioText.toList := by
    rw [Binary64.ratioText, String.toList_ofList]
    exact isPlain_of_readBinary64 (Binary64.readBinary64_ratioChars h.isFinite_ratio)
  rw [record, Point.args]
  simp only [List.cons_append, List.nil_append, List.forall_mem_cons]
  exact ⟨isPlain_countText _, isPlain_countText _, hratio, h.isPlain_values⟩

theorem readBinary64_ratioText (h : r.IsReadable) :
    readBinary64 r.point.ratio.ratioText.toList = .ok r.point.ratio := by
  rw [Binary64.ratioText, String.toList_ofList, Binary64.readBinary64_ratioChars h.isFinite_ratio]

/-- The fields of a row tell its point, up to the index, and its metrics. -/
theorem eq_of_record_eq (h : r.IsReadable) (h' : r'.IsReadable) (heq : r.record = r'.record) :
    r.point.servers = r'.point.servers ∧ r.point.clients = r'.point.clients ∧
      r.point.ratio = r'.point.ratio ∧ r.metrics = r'.metrics := by
  simp only [record, Point.args, List.cons_append, List.nil_append, List.cons.injEq] at heq
  obtain ⟨hservers, hclients, hratio, hvalues⟩ := heq
  have hcount {m n : UInt64} (h : countText m = countText n) : m = n := by
    have := readCount_countText m
    rw [h, readCount_countText] at this
    exact (Except.ok.inj this).symm
  have hr := readBinary64_ratioText h
  rw [hratio, readBinary64_ratioText h'] at hr
  exact ⟨hcount hservers, hcount hclients, (Except.ok.inj hr).symm,
    Metrics.values_injective hvalues⟩

end Row

/-! ### Tables -/

namespace Grid

/-- The table of a grid whose points have all run. -/
def table (g : Grid) (metrics : Point → Metrics) : Table :=
  ⟨g.points.map fun p => ⟨p, metrics p⟩⟩

/-- The ratios of a grid without faults are numbers. -/
theorem isFinite_of_check {g : Grid} (h : g.check = .ok ()) {ratio : Binary64}
    (hr : ratio ∈ g.ratios) : ratio.isFinite = true := by
  unfold check at h
  split at h
  · cases h
  split at h
  · cases h
  split at h
  · cases h
  · next hfind =>
    have hunit := List.find?_eq_none.1 hfind ratio hr
    rw [Bool.not_eq_true, Bool.not_eq_false', Binary64.inUnitInterval, Bool.or_eq_true,
      Bool.and_eq_true, decide_eq_true_eq, decide_eq_true_eq] at hunit
    rw [Binary64.isFinite, decide_eq_true_eq]
    rcases hunit with hzero | ⟨-, hone⟩
    · rw [hzero]
      decide
    · exact hone.trans_lt (by decide)

theorem ratio_mem_of_mem_points {g : Grid} {p : Point} (h : p ∈ g.points) : p.ratio ∈ g.ratios := by
  simp only [points, List.mem_map] at h
  obtain ⟨⟨⟨s, c, r⟩, i⟩, hmem, rfl⟩ := h
  have hmem := (List.mem_zipIdx' hmem).2 ▸ List.getElem_mem _
  simp only [combinations, List.mem_flatMap, List.mem_map, Prod.mk.injEq] at hmem
  obtain ⟨_, _, _, _, _, hr, _, _, rfl⟩ := hmem
  exact hr

variable {g g' : Grid} {output output' : Point → Bytes} {metrics metrics' : Point → Metrics}

theorem isReadable_of_check (hgrid : g.check = .ok ())
    (hread : ∀ p ∈ g.points, Metrics.read (output p) = .ok (metrics p)) {p : Point}
    (hp : p ∈ g.points) : Row.IsReadable ⟨p, metrics p⟩ where
  isFinite_ratio := isFinite_of_check hgrid (ratio_mem_of_mem_points hp)
  isPlain_values := Metrics.isPlain_of_read (hread p hp)

theorem isPlain_header : ∀ field ∈ Table.header, IsPlain field.toList := by
  simp only [IsPlain]
  decide

theorem isPlain_records (h : ∀ p ∈ g.points, Row.IsReadable ⟨p, metrics p⟩) :
    ∀ record ∈ (g.table metrics).records, ∀ field ∈ record, IsPlain field.toList := by
  refine List.forall_mem_cons.2 ⟨isPlain_header, fun record hrecord => ?_⟩
  simp only [table, List.map_map, List.mem_map] at hrecord
  obtain ⟨p, hp, rfl⟩ := hrecord
  exact (h p hp).isPlain_record

/-- Grids with the same records have the same points, with the same metrics. -/
theorem points_eq_of_records_eq (h : ∀ p ∈ g.points, Row.IsReadable ⟨p, metrics p⟩)
    (h' : ∀ p ∈ g'.points, Row.IsReadable ⟨p, metrics' p⟩)
    (heq : (g'.table metrics').records = (g.table metrics).records) :
    g'.points = g.points ∧ ∀ p ∈ g.points, metrics' p = metrics p := by
  have hrows : g'.points.map (fun p => Row.record ⟨p, metrics' p⟩) =
      g.points.map (fun p => Row.record ⟨p, metrics p⟩) := by
    simpa [Table.records, table, Function.comp_def] using heq
  have hlength : g'.points.length = g.points.length := by
    simpa using congrArg List.length hrows
  -- the index of a point is its position, so the fields tell the whole point
  have hpoint {i : ℕ} {p p' : Point} (hp : g.points[i]? = some p) (hp' : g'.points[i]? = some p') :
      p' = p ∧ metrics' p' = metrics p := by
    have hrecord : Row.record ⟨p', metrics' p'⟩ = Row.record ⟨p, metrics p⟩ := by
      simpa [hp, hp'] using congrArg (·[i]?) hrows
    obtain ⟨hservers, hclients, hratio, hmetrics⟩ := Row.eq_of_record_eq
      (h' p' (List.mem_of_getElem? hp')) (h p (List.mem_of_getElem? hp)) hrecord
    have hindex : p'.index = p.index :=
      (index_of_getElem? hp').trans (index_of_getElem? hp).symm
    refine ⟨?_, hmetrics⟩
    cases p
    cases p'
    rw [Point.mk.injEq]
    exact ⟨hindex, hservers, hclients, hratio⟩
  have hpoints : g'.points = g.points :=
    List.ext_getElem hlength fun i hi hi' =>
      (hpoint (List.getElem?_eq_getElem hi') (List.getElem?_eq_getElem hi)).1
  refine ⟨hpoints, fun p hp => ?_⟩
  obtain ⟨i, hi⟩ := List.getElem?_of_mem hp
  exact (hpoint hi (hpoints ▸ hi)).2

/-- **The file of results determines the sweep.** -/
theorem table_text (hgrid : g.check = .ok ())
    (hread : ∀ p ∈ g.points, Metrics.read (output p) = .ok (metrics p)) :
    (∃ lines : List (List Char),
      (g.table metrics).text = encode (lines.flatMap (· ++ ['\n'])) ∧
      lines.length = g.servers.length * g.clients.length * g.ratios.length + 1 ∧
      (∀ line ∈ lines, '"' ∉ line ∧ '\r' ∉ line ∧ '\n' ∉ line ∧ line.count ',' = 7) ∧
      lines.head? = some ("num_servers,num_clients,ratio,num_writes,num_reads,time_taken," ++
        "time_to_add_a_node,time_to_remove_a_node").toList ∧
      ∀ i p, g.points[i]? = some p → ∃ line servers clients ratio,
        lines[i + 1]? = some line ∧
        splitOn ',' line = servers :: clients :: ratio :: (metrics p).values.map String.toList ∧
        readCount servers = .ok p.servers ∧ readCount clients = .ok p.clients ∧
        readBinary64 ratio = .ok p.ratio) ∧
    ∀ (g' : Grid) (output' : Point → Bytes) (metrics' : Point → Metrics), g'.check = .ok () →
      (∀ p ∈ g'.points, Metrics.read (output' p) = .ok (metrics' p)) →
      (g'.table metrics').text = (g.table metrics).text →
      g'.points = g.points ∧ ∀ p ∈ g.points, metrics' p = metrics p := by
  have hrows := fun p => isReadable_of_check (p := p) hgrid hread
  have hplain := isPlain_records hrows
  refine ⟨⟨(g.table metrics).records.map plainLine, Csv.text_eq_of_isPlain hplain, ?_, ?_, ?_, ?_⟩,
    fun g' output' metrics' hgrid' hread' htext => ?_⟩
  · simp [Table.records, table, length_points]
  · rintro line hline
    obtain ⟨record, hrecord, rfl⟩ := List.mem_map.1 hline
    have hnot {c : Char} := Csv.not_mem_plainLine (hplain record hrecord) (c := c)
    refine ⟨hnot (.inl rfl), hnot (.inr (.inl rfl)), hnot (.inr (.inr rfl)), ?_⟩
    rw [Csv.count_plainLine (hplain record hrecord), Table.length_of_mem_records hrecord]
  · rw [Table.records, List.map_cons, List.head?_cons]
    decide
  · intro i p hp
    have hmem := List.mem_of_getElem? hp
    have hrow := hrows p hmem
    refine ⟨_, _, _, _, ?_, Csv.splitOn_plainLine (List.cons_ne_nil _ _) hrow.isPlain_record,
      readCount_countText _, readCount_countText _, Row.readBinary64_ratioText hrow⟩
    simp only [Table.records, table, List.map_cons, List.getElem?_cons_succ, List.getElem?_map, hp,
      Option.map_some]
    rfl
  · have hrows' := fun p => isReadable_of_check (p := p) hgrid' hread'
    exact points_eq_of_records_eq hrows hrows' <|
      Csv.eq_of_text_eq (fun _ => Table.ne_nil_of_mem_records)
        (fun _ => Table.ne_nil_of_mem_records) (isPlain_records hrows') hplain htext

/-- A sweep of four points, whose runs print different numbers: each line has the numbers of its own
point, and that of the ratio minus zero tells the sign. -/
theorem table_text_four_points :
    let g : Grid := ⟨[2], [3, 7], [⟨0x8000000000000000⟩, ⟨0x3FE0000000000000⟩]⟩
    let output (p : Point) : Bytes :=
      Text.bytesOf ("1" ++ Number.natText p.index ++ "\n20\n 1.5\n2e-3\r\n-inf\n")
    let metrics (p : Point) : Metrics :=
      ⟨"1" ++ Number.natText p.index, "20", "1.5", "2e-3", "-inf"⟩
    g.check = .ok () ∧ (∀ p ∈ g.points, Metrics.read (output p) = .ok (metrics p)) ∧
      (∃ (lines : List (List Char)) (servers clients ratio servers' clients' ratio' : List Char),
        (g.table metrics).text = encode (lines.flatMap (· ++ ['\n'])) ∧ lines.length = 5 ∧
        lines[1]?.map (splitOn ',') = some (servers :: clients :: ratio ::
          ["10".toList, "20".toList, "1.5".toList, "2e-3".toList, "-inf".toList]) ∧
        readCount clients = .ok 3 ∧ readBinary64 ratio = .ok ⟨0x8000000000000000⟩ ∧
        lines[4]?.map (splitOn ',') = some (servers' :: clients' :: ratio' ::
          ["13".toList, "20".toList, "1.5".toList, "2e-3".toList, "-inf".toList]) ∧
        readCount clients' = .ok 7 ∧ readBinary64 ratio' = .ok ⟨0x3FE0000000000000⟩) ∧
      ∀ (g' : Grid) (output' : Point → Bytes) (metrics' : Point → Metrics), g'.check = .ok () →
        (∀ p ∈ g'.points, Metrics.read (output' p) = .ok (metrics' p)) →
        (g'.table metrics').text = (g.table metrics).text →
        g'.points = g.points ∧ ∀ p ∈ g.points, metrics' p = metrics p := by
  intro g output metrics
  have hgrid : g.check = .ok () := by decide
  have hread : ∀ p ∈ g.points, Metrics.read (output p) = .ok (metrics p) := by decide +kernel
  obtain ⟨⟨lines, htext, hlength, -, -, hpoints⟩, hunique⟩ := table_text hgrid hread
  obtain ⟨line, servers, clients, ratio, hline, hsplit, -, hclients, hratio⟩ := hpoints 0 _ rfl
  obtain ⟨line', servers', clients', ratio', hline', hsplit', -, hclients', hratio'⟩ :=
    hpoints 3 _ rfl
  have hvalues : (metrics ⟨0, 2, 3, ⟨0x8000000000000000⟩⟩).values.map String.toList =
      ["10".toList, "20".toList, "1.5".toList, "2e-3".toList, "-inf".toList] := by
    decide +kernel
  have hvalues' : (metrics ⟨3, 2, 7, ⟨0x3FE0000000000000⟩⟩).values.map String.toList =
      ["13".toList, "20".toList, "1.5".toList, "2e-3".toList, "-inf".toList] := by
    decide +kernel
  refine ⟨hgrid, hread, ⟨lines, servers, clients, ratio, servers', clients', ratio', htext, hlength,
    ?_, hclients, hratio, ?_, hclients', hratio'⟩, hunique⟩
  · rw [hline, Option.map_some, hsplit]
    exact congrArg (fun values => some (servers :: clients :: ratio :: values)) hvalues
  · rw [hline', Option.map_some, hsplit']
    exact congrArg (fun values => some (servers' :: clients' :: ratio' :: values)) hvalues'

end Grid

end BenchSweep
