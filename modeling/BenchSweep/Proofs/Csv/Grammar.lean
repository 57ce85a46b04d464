import BenchSweep.Csv
import BenchSweep.Proofs.Text.Split
import Mathlib.Data.List.Forall2

/-!
# Comma-separated text as a grammar, and its reader

A text is a run of lines, each closed by a line feed. A line is one field or more with commas
between them. A field is written as it is, if it has no comma, no quote and no line feed; any field
can be written between quotes, with every quote in it doubled. A carriage return is a byte like any
other.

The reader goes through a text byte by byte. It knows whether it stands between quotes, and after a
quote inside it waits for the next byte: a second quote belongs to the field, anything else ends it.
It accepts exactly the texts of the grammar, so no text has two readings.

## Why the reader is written here

To say that a table can be read back, a reader is needed, and which one matters: a reader that
undoes the writer by construction would show little. The grammar says which texts are records
without mentioning either, and the reader, which goes byte by byte and looks at nothing twice,
accepts exactly its texts. What is written is then shown to be in the grammar, and the reader
follows.

## The invariant

After any bytes, a reader holds the records and fields that are complete and knows its place in the
one that is open. `Reading.HasRead` says which bytes lead there: those of the records, those of the
fields, each with its comma, and those of the open field, as it is written. `Reading.HasRead.step`
is one case for each way a byte can go, and what was read in the end is in the grammar because
nothing is open.

## Scope

A carriage return is kept as a byte of its field, so a text with such line ends is read with them in
its last fields. A text whose last line is not closed has no reading.

## Main definitions

* `Field`: what a field holds, and whether it stands between quotes.
* `IsField`, `IsRecord`, `IsText`: the grammar.
* `Reading.step`, `read`: the reader.
* `Reading.HasRead`: the bytes that a reader has been through.

## Main results

* `Reading.step_cases`: what a step can do.
* `Reading.HasRead.foldlM_step`: what a reader has been through is always what it has read.
* `read_eq_some_iff`: the reader accepts exactly the texts of the grammar.
-/

namespace BenchSweep.Csv

open Text (Bytes)

/-! ### The grammar -/

/-- A field of a text: what it holds, and whether it stands between quotes. -/
structure Field where
  isQuoted : Bool
  bytes : Bytes
  deriving DecidableEq, Repr

/-- What stands between the quotes of a field: its bytes, with every quote doubled. -/
inductive IsBody : Bytes → Bytes → Prop
  | nil : IsBody [] []
  | quote {bytes body : Bytes} (h : IsBody bytes body) : IsBody (34 :: bytes) (34 :: 34 :: body)
  | other {b : UInt8} {bytes body : Bytes} (hb : b ≠ 34) (h : IsBody bytes body) :
      IsBody (b :: bytes) (b :: body)

/-- Bytes that can be a field without quotes: no comma, no quote and no line feed. -/
def IsBare (bytes : Bytes) : Prop :=
  ∀ b ∈ bytes, b ≠ 44 ∧ b ≠ 34 ∧ b ≠ 10

/-- A field as it is written. -/
inductive IsField : Field → Bytes → Prop
  | bare {bytes : Bytes} (h : IsBare bytes) : IsField ⟨false, bytes⟩ bytes
  | quoted {bytes body : Bytes} (h : IsBody bytes body) :
      IsField ⟨true, bytes⟩ (34 :: (body ++ [34]))

/-- A line: one field or more with commas between them, and a line feed. -/
def IsRecord (fields : List Field) (line : Bytes) : Prop :=
  fields ≠ [] ∧
    ∃ written, List.Forall₂ IsField fields written ∧ line = [44].intercalate written ++ [10]

/-- A text: its lines, one after the other. -/
def IsText (records : List (List Field)) (bytes : Bytes) : Prop :=
  ∃ lines, List.Forall₂ IsRecord records lines ∧ bytes = lines.flatten

/-! ### The reader -/

/-- Where a reader stands, with what it has read of the field there. -/
inductive Place where
  /-- At the start of a field, or in one without quotes. -/
  | bare (bytes : Bytes)
  /-- Between quotes. -/
  | inside (bytes : Bytes)
  /-- After a quote that ends the field, unless another one follows. -/
  | closing (bytes : Bytes)
  deriving DecidableEq, Repr

/-- What has been read of a text: the records, the fields of the open line, and the place. -/
structure Reading where
  records : List (List Field) := []
  fields : List Field := []
  place : Place := .bare []
  deriving DecidableEq, Repr

namespace Reading

/-- A comma ends a field. -/
def endField (r : Reading) (field : Field) : Reading :=
  ⟨r.records, r.fields ++ [field], .bare []⟩

/-- A line feed ends a field and its line. -/
def endRecord (r : Reading) (field : Field) : Reading :=
  ⟨r.records ++ [r.fields ++ [field]], [], .bare []⟩

/-- Reads a byte. -/
def step (r : Reading) (b : UInt8) : Option Reading :=
  match r.place with
  | .bare bytes =>
    if b = 44 then some (r.endField ⟨false, bytes⟩)
    else if b = 10 then some (r.endRecord ⟨false, bytes⟩)
    else if b = 34 then if bytes = [] then some { r with place := .inside [] } else none
    else some { r with place := .bare (bytes ++ [b]) }
  | .inside bytes =>
    some { r with place := if b = 34 then .closing bytes else .inside (bytes ++ [b]) }
  | .closing bytes =>
    if b = 44 then some (r.endField ⟨true, bytes⟩)
    else if b = 10 then some (r.endRecord ⟨true, bytes⟩)
    else if b = 34 then some { r with place := .inside (bytes ++ [b]) }
    else none

end Reading

/-- The records of a text whose lines are all closed. -/
def read (bytes : Bytes) : Option (List (List Field)) :=
  match bytes.foldlM Reading.step {} with
  | some ⟨records, [], .bare []⟩ => some records
  | _ => none

/-! ### What a step can do -/

/-- How a byte that belongs to a field moves the place of a reader. -/
inductive Place.Moves : Place → UInt8 → Place → Prop
  | bare {bytes : Bytes} {b : UInt8} (hb : b ≠ 44 ∧ b ≠ 34 ∧ b ≠ 10) :
      Moves (.bare bytes) b (.bare (bytes ++ [b]))
  | opens : Moves (.bare []) 34 (.inside [])
  | inside {bytes : Bytes} {b : UInt8} (hb : b ≠ 34) :
      Moves (.inside bytes) b (.inside (bytes ++ [b]))
  | closes {bytes : Bytes} : Moves (.inside bytes) 34 (.closing bytes)
  | doubled {bytes : Bytes} : Moves (.closing bytes) 34 (.inside (bytes ++ [34]))

namespace Reading

/-- The place of a reader at the end of a field, before the byte that ends it. -/
def placeAfter (field : Field) : Place :=
  if field.isQuoted then .closing field.bytes else .bare field.bytes

/-- A step goes on in a field, or ends it with a comma or a line feed. -/
theorem step_cases {r r' : Reading} {b : UInt8} (h : r.step b = some r') :
    (∃ place, r.place.Moves b place ∧ r' = { r with place := place }) ∨
      ∃ field, r.place = placeAfter field ∧
        (b = 44 ∧ r' = r.endField field ∨ b = 10 ∧ r' = r.endRecord field) := by
  obtain ⟨records, fields, place⟩ := r
  cases place with
  | bare bytes =>
    simp only [step] at h
    by_cases hcomma : b = 44
    · rw [if_pos hcomma] at h
      exact .inr ⟨⟨false, bytes⟩, rfl, .inl ⟨hcomma, (Option.some.inj h).symm⟩⟩
    by_cases hfeed : b = 10
    · rw [if_neg hcomma, if_pos hfeed] at h
      exact .inr ⟨⟨false, bytes⟩, rfl, .inr ⟨hfeed, (Option.some.inj h).symm⟩⟩
    rw [if_neg hcomma, if_neg hfeed] at h
    by_cases hquote : b = 34
    · rw [if_pos hquote] at h
      split at h
      next hnil =>
        subst hnil hquote
        exact .inl ⟨_, .opens, (Option.some.inj h).symm⟩
      next => cases h
    · rw [if_neg hquote] at h
      exact .inl ⟨_, .bare ⟨hcomma, hquote, hfeed⟩, (Option.some.inj h).symm⟩
  | inside bytes =>
    simp only [step] at h
    split at h
    next hquote => exact .inl ⟨_, hquote ▸ .closes, (Option.some.inj h).symm⟩
    next hquote => exact .inl ⟨_, .inside hquote, (Option.some.inj h).symm⟩
  | closing bytes =>
    simp only [step] at h
    by_cases hcomma : b = 44
    · rw [if_pos hcomma] at h
      exact .inr ⟨⟨true, bytes⟩, rfl, .inl ⟨hcomma, (Option.some.inj h).symm⟩⟩
    by_cases hfeed : b = 10
    · rw [if_neg hcomma, if_pos hfeed] at h
      exact .inr ⟨⟨true, bytes⟩, rfl, .inr ⟨hfeed, (Option.some.inj h).symm⟩⟩
    rw [if_neg hcomma, if_neg hfeed] at h
    split at h
    next hquote =>
      subst hquote
      exact .inl ⟨_, .doubled, (Option.some.inj h).symm⟩
    next => cases h

end Reading

/-! ### Every text of the grammar is read -/

namespace Reading

variable {records : List (List Field)} {fields : List Field}

theorem foldlM_step_bare {bytes : Bytes} (h : IsBare bytes) (earlier : Bytes) :
    bytes.foldlM step ⟨records, fields, .bare earlier⟩ =
      some ⟨records, fields, .bare (earlier ++ bytes)⟩ := by
  induction bytes generalizing earlier with
  | nil => rw [List.append_nil]; rfl
  | cons b bytes ih =>
    obtain ⟨⟨hcomma, hquote, hfeed⟩, hbytes⟩ := List.forall_mem_cons.1 h
    have hstep : step ⟨records, fields, .bare earlier⟩ b =
        some ⟨records, fields, .bare (earlier ++ [b])⟩ := by
      simp only [step, if_neg hcomma, if_neg hfeed, if_neg hquote]
    rw [List.foldlM_cons, hstep, Option.bind_eq_bind, Option.bind_some, ih hbytes,
      List.append_assoc, List.singleton_append]

theorem foldlM_step_body {bytes body : Bytes} (h : IsBody bytes body) (earlier : Bytes) :
    body.foldlM step ⟨records, fields, .inside earlier⟩ =
      some ⟨records, fields, .inside (earlier ++ bytes)⟩ := by
  induction h generalizing earlier with
  | nil => rw [List.append_nil]; rfl
  | quote h ih =>
    -- the first quote could end the field, the second one shows that it does not
    change List.foldlM step ⟨records, fields, .inside (earlier ++ [34])⟩ _ = _
    rw [ih, List.append_assoc, List.singleton_append]
  | @other b _ _ hb h ih =>
    have hstep : step ⟨records, fields, .inside earlier⟩ b =
        some ⟨records, fields, .inside (earlier ++ [b])⟩ := by
      simp only [step, if_neg hb]
    rw [List.foldlM_cons, hstep, Option.bind_eq_bind, Option.bind_some, ih, List.append_assoc,
      List.singleton_append]

theorem foldlM_step_field {field : Field} {written : Bytes} (h : IsField field written) :
    written.foldlM step ⟨records, fields, .bare []⟩ =
      some ⟨records, fields, placeAfter field⟩ := by
  cases h with
  | bare h => exact foldlM_step_bare h []
  | @quoted bytes body h =>
    change List.foldlM step ⟨records, fields, .inside []⟩ (body ++ [34]) = _
    rw [List.foldlM_append, foldlM_step_body h]
    rfl

theorem step_comma (field : Field) :
    step ⟨records, fields, placeAfter field⟩ 44 =
      some ⟨records, fields ++ [field], .bare []⟩ := by
  obtain ⟨isQuoted, bytes⟩ := field
  cases isQuoted <;> rfl

theorem step_feed (field : Field) :
    step ⟨records, fields, placeAfter field⟩ 10 =
      some ⟨records ++ [fields ++ [field]], [], .bare []⟩ := by
  obtain ⟨isQuoted, bytes⟩ := field
  cases isQuoted <;> rfl

theorem foldlM_step_fields {more : List Field} {written : List Bytes}
    (h : List.Forall₂ IsField more written) (hne : more ≠ []) :
    ([44].intercalate written ++ [10]).foldlM step ⟨records, fields, .bare []⟩ =
      some ⟨records ++ [fields ++ more], [], .bare []⟩ := by
  induction h generalizing fields with
  | nil => exact absurd rfl hne
  | @cons field first more written hfield hmore ih =>
    cases hmore with
    | nil =>
      rw [List.intercalate_singleton, List.foldlM_append, foldlM_step_field hfield]
      exact congrArg (· >>= pure) (step_feed field)
    | cons hnext hlater =>
      rw [List.intercalate_cons_cons, List.append_assoc, List.append_assoc, List.foldlM_append,
        foldlM_step_field hfield, Option.bind_eq_bind, Option.bind_some, List.singleton_append,
        List.foldlM_cons, step_comma, Option.bind_eq_bind, Option.bind_some,
        ih (List.cons_ne_nil _ _), List.append_assoc, List.singleton_append]

theorem foldlM_step_text {more : List (List Field)} {lines : List Bytes}
    (h : List.Forall₂ IsRecord more lines) :
    lines.flatten.foldlM step ⟨records, [], .bare []⟩ =
      some ⟨records ++ more, [], .bare []⟩ := by
  induction h generalizing records with
  | nil => rw [List.append_nil]; rfl
  | cons hrecord _ ih =>
    obtain ⟨hne, written, hwritten, rfl⟩ := hrecord
    rw [List.flatten_cons, List.foldlM_append, foldlM_step_fields hwritten hne,
      Option.bind_eq_bind, Option.bind_some, ih, List.nil_append, List.append_assoc,
      List.singleton_append]

end Reading

/-! ### Nothing else is read -/

/-- What has been read of the field at a place, as it is written. -/
def IsOpen : Place → Bytes → Prop
  | .bare bytes, written => written = bytes ∧ IsBare bytes
  | .inside bytes, written => ∃ body, written = 34 :: body ∧ IsBody bytes body
  | .closing bytes, written => ∃ body, written = 34 :: (body ++ [34]) ∧ IsBody bytes body

/-- What has been read before a field: lines, then fields with a comma after each. -/
def IsBefore (records : List (List Field)) (fields : List Field) (bytes : Bytes) : Prop :=
  ∃ text written, IsText records text ∧ List.Forall₂ IsField fields written ∧
    bytes = text ++ written.flatMap (· ++ [44])

/-- The bytes that a reader has been through. -/
def Reading.HasRead (r : Reading) (done : Bytes) : Prop :=
  ∃ before here, IsBefore r.records r.fields before ∧ IsOpen r.place here ∧ done = before ++ here

theorem isBare_nil : IsBare [] :=
  fun _ h => absurd h List.not_mem_nil

theorem IsBody.append {bytes body bytes' body' : Bytes} (h : IsBody bytes body)
    (h' : IsBody bytes' body') : IsBody (bytes ++ bytes') (body ++ body') := by
  induction h with
  | nil => exact h'
  | quote _ ih => exact .quote ih
  | other hb _ ih => exact .other hb ih

/-- A byte that belongs to a field is written in it. -/
theorem IsOpen.move {place place' : Place} {here : Bytes} {b : UInt8} (h : IsOpen place here)
    (hmove : place.Moves b place') : IsOpen place' (here ++ [b]) := by
  cases hmove with
  | bare hb =>
    obtain ⟨rfl, hbare⟩ := h
    exact ⟨rfl, List.forall_mem_append.2 ⟨hbare, List.forall_mem_singleton.2 hb⟩⟩
  | opens =>
    obtain ⟨rfl, -⟩ := h
    exact ⟨[], rfl, .nil⟩
  | inside hb =>
    obtain ⟨body, rfl, hbody⟩ := h
    exact ⟨body ++ [b], rfl, hbody.append (.other hb .nil)⟩
  | closes =>
    obtain ⟨body, rfl, hbody⟩ := h
    exact ⟨body, rfl, hbody⟩
  | doubled =>
    obtain ⟨body, rfl, hbody⟩ := h
    refine ⟨body ++ [34, 34], ?_, hbody.append (.quote .nil)⟩
    rw [List.cons_append, List.append_assoc]
    rfl

/-- What has been read at the end of a field is the field. -/
theorem IsOpen.isField {field : Field} {here : Bytes}
    (h : IsOpen (Reading.placeAfter field) here) : IsField field here := by
  obtain ⟨isQuoted, bytes⟩ := field
  cases isQuoted with
  | false =>
    obtain ⟨rfl, hbare⟩ := h
    exact .bare hbare
  | true =>
    obtain ⟨body, rfl, hbody⟩ := h
    exact .quoted hbody

section

variable {records : List (List Field)} {fields : List Field} {before written : Bytes}
  {field : Field}

theorem forall₂_concat {α β : Type} {R : α → β → Prop} {l : List α} {l' : List β} {a : α} {b : β}
    (h : List.Forall₂ R l l') (hab : R a b) : List.Forall₂ R (l ++ [a]) (l' ++ [b]) :=
  List.rel_append h (.cons hab .nil)

theorem IsBefore.comma (h : IsBefore records fields before) (hfield : IsField field written) :
    IsBefore records (fields ++ [field]) (before ++ written ++ [44]) := by
  obtain ⟨text, earlier, htext, hearlier, rfl⟩ := h
  refine ⟨text, earlier ++ [written], htext, forall₂_concat hearlier hfield, ?_⟩
  rw [List.flatMap_append, List.flatMap_singleton, List.append_assoc, List.append_assoc]

theorem IsBefore.feed (h : IsBefore records fields before) (hfield : IsField field written) :
    IsBefore (records ++ [fields ++ [field]]) [] (before ++ written ++ [10]) := by
  obtain ⟨text, earlier, ⟨lines, hlines, rfl⟩, hearlier, rfl⟩ := h
  have hrecord : IsRecord (fields ++ [field]) ([44].intercalate (earlier ++ [written]) ++ [10]) :=
    ⟨List.append_ne_nil_of_right_ne_nil _ (List.cons_ne_nil _ _), _,
      forall₂_concat hearlier hfield, rfl⟩
  refine ⟨_, [], ⟨_, forall₂_concat hlines hrecord, rfl⟩, .nil, ?_⟩
  rw [Text.intercalate_concat, List.flatten_concat, List.flatMap_nil, List.append_nil]
  simp only [List.append_assoc]

end

namespace Reading

variable {r r' : Reading} {done : Bytes} {b : UInt8}

theorem hasRead_start : HasRead {} [] :=
  ⟨[], [], ⟨[], [], ⟨[], .nil, rfl⟩, .nil, rfl⟩, ⟨rfl, isBare_nil⟩, rfl⟩

/-- At the end of a field, a comma and a line feed are read as such. -/
theorem hasRead_end {before written : Bytes} (h : IsBefore r.records r.fields before)
    {field : Field} (hfield : IsField field written) :
    (r.endField field).HasRead (before ++ written ++ [44]) ∧
      (r.endRecord field).HasRead (before ++ written ++ [10]) :=
  ⟨⟨_, [], h.comma hfield, ⟨rfl, isBare_nil⟩, (List.append_nil _).symm⟩,
    ⟨_, [], h.feed hfield, ⟨rfl, isBare_nil⟩, (List.append_nil _).symm⟩⟩

/-- A step reads the next byte. -/
theorem HasRead.step (h : r.HasRead done) (hstep : r.step b = some r') :
    r'.HasRead (done ++ [b]) := by
  obtain ⟨before, here, hbefore, hopen, rfl⟩ := h
  rcases step_cases hstep with ⟨place, hmove, rfl⟩ | ⟨field, hplace, hend⟩
  · exact ⟨before, here ++ [b], hbefore, hopen.move hmove, List.append_assoc ..⟩
  · rw [hplace] at hopen
    obtain ⟨hcomma, hfeed⟩ := hasRead_end hbefore hopen.isField
    rcases hend with ⟨rfl, rfl⟩ | ⟨rfl, rfl⟩
    · exact hcomma
    · exact hfeed

theorem HasRead.foldlM_step {bytes : Bytes} (h : r.HasRead done)
    (hbytes : bytes.foldlM Reading.step r = some r') : r'.HasRead (done ++ bytes) := by
  induction bytes generalizing r done with
  | nil =>
    cases hbytes
    rwa [List.append_nil]
  | cons b bytes ih =>
    rw [List.foldlM_cons, Option.bind_eq_bind, Option.bind_eq_some_iff] at hbytes
    obtain ⟨next, hstep, hbytes⟩ := hbytes
    rw [← List.singleton_append, ← List.append_assoc]
    exact ih (h.step hstep) hbytes

end Reading

/-- **The reader accepts exactly the texts of the grammar.** -/
theorem read_eq_some_iff {bytes : Bytes} {records : List (List Field)} :
    read bytes = some records ↔ IsText records bytes := by
  constructor
  · intro h
    rw [read] at h
    split at h
    next later hread =>
      cases h
      have hstart := Reading.hasRead_start.foldlM_step hread
      obtain ⟨before, here, ⟨text, written, htext, hwritten, rfl⟩, ⟨rfl, -⟩, hbytes⟩ := hstart
      cases hwritten
      rw [List.nil_append, List.flatMap_nil, List.append_nil, List.append_nil] at hbytes
      exact hbytes ▸ htext
    next => cases h
  · rintro ⟨lines, hlines, rfl⟩
    rw [read, Reading.foldlM_step_text hlines, List.nil_append]

/-- No text has two readings. -/
theorem IsText.unique {bytes : Bytes} {records records' : List (List Field)}
    (h : IsText records bytes) (h' : IsText records' bytes) : records = records' :=
  Option.some.inj ((read_eq_some_iff.2 h).symm.trans (read_eq_some_iff.2 h'))

end BenchSweep.Csv
