import PipeCodec.Proofs.Text.Lines
import PipeCodec.Proofs.Wire.Span

/-!
# Spans of a text

The delimiter is a character of one byte, and no other character has that byte among its own.  So
where the bytes of a text are cut at the delimiter, no character is cut: every span is a text again,
and the first one is what the text has before its first bar.
-/

set_option autoImplicit false

namespace PipeCodec.Wire

theorem delimiter_notMem_encodeChars {chars : List Char} (absent : '|' ∉ chars) :
    delimiter ∉ Utf8.encodeChars chars := by
  have bytewise := delimiter_mem_encode_iff (String.ofList chars)
  rw [Utf8.encode, String.toList_ofList] at bytewise
  exact mt bytewise.mp absent

theorem encodeChars_closed (before after : List Char) :
    Utf8.encodeChars (before ++ '|' :: after) =
      closeSpan (Utf8.encodeChars before) ++ Utf8.encodeChars after := by
  rw [Utf8.encodeChars_append, closeSpan, List.append_assoc]
  rfl

theorem encodeChars_ne_nil {chars : List Char} (someChar : chars ≠ []) :
    Utf8.encodeChars chars ≠ [] := by
  obtain ⟨c, rest, rfl⟩ := List.exists_cons_of_ne_nil someChar
  intro nothing
  rw [Utf8.encodeChars, List.flatMap_cons, List.append_eq_nil_iff] at nothing
  exact String.utf8EncodeChar_ne_nil nothing.1

/-- The spans of a text, as rows of characters. -/
theorem spans_encodeChars (chars : List Char) :
    ∃ rows : List (List Char), spans (Utf8.encodeChars chars) = rows.map Utf8.encodeChars ∧
      (chars ≠ [] → rows.head? = some (chars.takeWhile (· ≠ '|'))) := by
  induction chars using Segment.segment_induction '|' with
  | unclosed chars absent =>
    cases chars with
    | nil => exact ⟨[], spans_nil, fun someChar => absurd rfl someChar⟩
    | cons c rest =>
      refine ⟨[c :: rest], ?_, ?_⟩
      · rw [spans_of_notMem (delimiter_notMem_encodeChars absent)
          (encodeChars_ne_nil (List.cons_ne_nil c rest))]
        rfl
      · intro _
        rw [List.takeWhile_eq_self_iff.mpr]
        · rfl
        · intro other among
          exact decide_eq_true fun bar => absent (bar ▸ among)
  | closed before after absent ih =>
    obtain ⟨rows, row, -⟩ := ih
    refine ⟨before :: rows, ?_, ?_⟩
    · rw [encodeChars_closed, spans_closeSpan _ _ (delimiter_notMem_encodeChars absent), row]
      rfl
    · intro _
      have ordinary : ∀ c ∈ before, decide (c ≠ '|') = true := fun c among =>
        decide_eq_true fun bar => absent (bar ▸ among)
      rw [List.takeWhile_append_of_pos ordinary, List.takeWhile_cons_of_neg (by decide),
        List.append_nil]
      rfl

theorem exists_text_of_mem_spans {text : String} {span : Bytes}
    (among : span ∈ spans (Utf8.encode text)) : ∃ own, span = Utf8.encode own := by
  obtain ⟨rows, row, -⟩ := spans_encodeChars text.toList
  rw [Utf8.encode, row] at among
  obtain ⟨chars, -, rfl⟩ := List.mem_map.mp among
  exact ⟨String.ofList chars, by rw [Utf8.encode, String.toList_ofList]⟩

theorem exists_text_of_spans_eq_cons {text : String} {tag : Bytes} {rest : List Bytes}
    (row : spans (Utf8.encode text) = tag :: rest) :
    ∀ span ∈ rest, ∃ own, span = Utf8.encode own := by
  intro span among
  have member : span ∈ spans (Utf8.encode text) := by
    rw [row]
    exact List.mem_cons_of_mem tag among
  exact exists_text_of_mem_spans member

def leadingText (text : String) : String :=
  String.ofList (text.toList.takeWhile (· ≠ '|'))

theorem head_spans_encode {text : String} {tag : Bytes} {rest : List Bytes}
    (row : spans (Utf8.encode text) = tag :: rest) : tag = Utf8.encode (leadingText text) := by
  obtain ⟨rows, charRow, first⟩ := spans_encodeChars text.toList
  rw [Utf8.encode, charRow] at row
  have someChar : text.toList ≠ [] := by
    intro nothing
    rw [← charRow, nothing] at row
    cases spans_nil.symm.trans row
  have leading := first someChar
  cases rows with
  | nil => cases row
  | cons chars others =>
    rw [← (List.cons.inj row).1, Option.some.inj leading, Utf8.encode, leadingText,
      String.toList_ofList]

end PipeCodec.Wire
