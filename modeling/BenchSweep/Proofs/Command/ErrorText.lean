import BenchSweep.Command.Ending
import BenchSweep.Proofs.Metrics.Diagnosis

/-!
# Standard error as text

Standard error is shown as text whatever bytes it holds. What is UTF-8 is read as it is, up to the
first byte that is not, and from there on with U+FFFD in place of what no continuation makes a
character. So the text is that of the bytes exactly if an output of these bytes would be taken for
UTF-8.

## Why there are laws and no grammar

How many replacement characters stand for bytes that are no text is a convention, and a statement of
it would be the decoder once more. What can be relied on is said by laws: texts are read as they
are, also in front of other bytes; the bytes can be had back exactly if they were UTF-8; otherwise
there is a replacement character to see. The blanks at the end are taken off after the decoding, so
that the line end that a command prints is not shown.

## Main results

* `Text.decodeLossy_encode_append`: a text in front of other bytes is read as it is.
* `Text.encode_decodeLossy_eq_iff`: what is read stands for the same bytes only if these are UTF-8.
* `Command.Ending.errorText_decodes`: how standard error is shown.
-/

namespace BenchSweep

namespace Text

theorem decodeLossy_cons (lead : UInt8) (rest : Bytes) :
    decodeLossy (lead :: rest) =
      (nextPiece lead rest).1.shown :: decodeLossy (nextPiece lead rest).2 := by
  rw [decodeLossy, pieces]
  rfl

/-- **A text in front of other bytes is read as it is.** -/
theorem decodeLossy_encode_append (text : List Char) (bytes : Bytes) :
    decodeLossy (encode text ++ bytes) = text ++ decodeLossy bytes := by
  induction text with
  | nil => rfl
  | cons c text ih =>
    have hencode : encode (c :: text) ++ bytes =
        String.utf8EncodeChar c ++ (encode text ++ bytes) := List.append_assoc ..
    obtain ⟨lead, rest, hchar⟩ :=
      List.exists_cons_of_ne_nil (String.utf8EncodeChar_ne_nil (c := c))
    have hnext : nextPiece lead (rest ++ (encode text ++ bytes)) =
        (.char c, encode text ++ bytes) := by
      rw [nextPiece_eq_char_iff, hchar, List.cons_append]
    rw [hencode, hchar, List.cons_append, decodeLossy_cons, hnext]
    exact congrArg (c :: ·) ih

theorem decodeLossy_encode (text : List Char) : decodeLossy (encode text) = text := by
  have h := decodeLossy_encode_append text []
  have hnil : decodeLossy [] = [] := by
    rw [decodeLossy, pieces]
    rfl
  rwa [hnil, List.append_nil, List.append_nil] at h

/-- What is read stands for the same bytes only if these are UTF-8. -/
theorem encode_decodeLossy_eq_iff {bytes : Bytes} :
    encode (decodeLossy bytes) = bytes ↔ ∃ text, bytes = encode text := by
  constructor
  · exact fun h => ⟨_, h.symm⟩
  · rintro ⟨text, rfl⟩
    rw [decodeLossy_encode]

theorem exists_mapM_char? {ps : List Piece} (h : ∀ piece ∈ ps, piece ≠ .malformed) :
    ∃ text, ps.mapM Piece.char? = some text := by
  induction ps with
  | nil => exact ⟨[], rfl⟩
  | cons piece ps ih =>
    obtain ⟨hpiece, hps⟩ := List.forall_mem_cons.1 h
    obtain ⟨text, htext⟩ := ih hps
    cases piece with
    | malformed => exact absurd rfl hpiece
    | char c => exact ⟨c :: text, by rw [List.mapM_cons, htext]; rfl⟩

/-- What is not UTF-8 is seen to be so. -/
theorem mem_decodeLossy_of_not {bytes : Bytes} (h : ¬∃ text, bytes = encode text) :
    '\uFFFD' ∈ decodeLossy bytes := by
  by_contra hnot
  have hchars : ∀ piece ∈ pieces bytes, piece ≠ .malformed := by
    rintro piece hpiece rfl
    exact hnot (List.mem_map.2 ⟨.malformed, hpiece, rfl⟩)
  obtain ⟨text, htext⟩ := exists_mapM_char? hchars
  exact h ⟨text, decode?_eq_some_iff.1 htext⟩

example : decodeLossy [0x61, 0xE2, 0x82, 0x62, 0xFF] = ['a', '\uFFFD', 'b', '\uFFFD'] := by
  decide +kernel

end Text

namespace Command.Ending

open Text (IsTrimmedEnd bytesOf decodeLossy encode isTrimmedEnd_iff)

theorem isTrimmedEnd_errorText (e : Ending) :
    IsTrimmedEnd e.errorText.toList (decodeLossy e.stderr) := by
  rw [isTrimmedEnd_iff, errorText, String.toList_ofList]

/-- To show what is shown changes nothing. -/
theorem errorText_bytesOf_errorText (e : Ending) :
    { e with stderr := bytesOf e.errorText }.errorText = e.errorText := by
  have hend := (isTrimmedEnd_errorText e).isBlank_last
  have hself : IsTrimmedEnd e.errorText.toList e.errorText.toList :=
    ⟨⟨[], (List.append_nil _).symm, Text.isBlanks_nil⟩, hend⟩
  have hbytes : decodeLossy (bytesOf e.errorText) = e.errorText.toList :=
    Text.decodeLossy_encode e.errorText.toList
  rw [← String.toList_inj, errorText.eq_def { e with stderr := bytesOf e.errorText },
    String.toList_ofList]
  dsimp only
  rw [hbytes]
  exact isTrimmedEnd_iff.1 hself

/-- **How standard error is shown.** What is UTF-8 is read as it is, in front of other bytes too;
the text that is read stands for the same bytes exactly if an output of these bytes would not be
reported as no text, and otherwise U+FFFD stands in it. It is shown without the blanks at its end,
and to show this again changes nothing. -/
theorem errorText_decodes (e : Ending) :
    (∀ text, e.stderr = encode text → IsTrimmedEnd e.errorText.toList text) ∧
    (∀ text rest, e.stderr = encode text ++ rest →
      decodeLossy e.stderr = text ++ decodeLossy rest) ∧
    (encode (decodeLossy e.stderr) = e.stderr ↔ ∃ text, e.stderr = encode text) ∧
    ((∃ text, e.stderr = encode text) ↔ Metrics.read e.stderr ≠ .error .notText) ∧
    ((¬∃ text, e.stderr = encode text) → '\uFFFD' ∈ decodeLossy e.stderr) ∧
    IsTrimmedEnd e.errorText.toList (decodeLossy e.stderr) ∧
    { e with stderr := bytesOf e.errorText }.errorText = e.errorText := by
  have hshown := isTrimmedEnd_errorText e
  refine ⟨fun text htext => ?_, fun text rest htext => ?_, Text.encode_decodeLossy_eq_iff, ?_,
    Text.mem_decodeLossy_of_not, hshown, errorText_bytesOf_errorText e⟩
  · rwa [htext, Text.decodeLossy_encode] at hshown
  · rw [htext, Text.decodeLossy_encode_append]
  · rw [ne_eq, Metrics.read_eq_notText_iff, not_not]

end Command.Ending

end BenchSweep
