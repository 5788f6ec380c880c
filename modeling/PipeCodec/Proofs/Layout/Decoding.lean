import PipeCodec.Layout
import PipeCodec.Proofs.Wire.Reading

/-!
# Decoding by position

Decoding against a layout is a function of the row of spans: the first span is the tag, the span at
a position belongs to the field at that position, and the first field that refuses its span decides.
The cursor that the decoder moves along the bytes does not appear in this description.
-/

set_option autoImplicit false

namespace PipeCodec

def Value.ofSpan (integers : IntegerRule) (field : Field) (span : Option Bytes) :
    Except WireError Value :=
  match field.kind with
  | .text => text <$> textOfSpan field.name span
  | .integer => integer <$> integerOfSpan integers field.name span

theorem Value.refusal_of_ofSpan {integers : IntegerRule} {field : Field} {found : Option Bytes}
    {cause : WireError} (refused : Value.ofSpan integers field found = .error cause) :
    cause = .malformedText field.name ∨
      ∃ span, found = some span ∧ cause = .malformedInteger field.name (Utf8.lossy span) := by
  unfold Value.ofSpan at refused
  cases kind : field.kind with
  | text =>
    rw [kind, map_eq_error_iff] at refused
    unfold textOfSpan at refused
    split at refused
    · cases refused
    · split at refused
      · cases refused
      · cases refused
        exact Or.inl rfl
  | integer =>
    rw [kind, map_eq_error_iff] at refused
    unfold integerOfSpan at refused
    split at refused
    · cases refused
    · next span =>
      split at refused
      · cases refused
      · split at refused
        · cases refused
        · cases refused
          exact Or.inr ⟨span, rfl, rfl⟩

theorem Value.result_read (field : Field) (cursor : Cursor) :
    (Value.read field).result cursor =
      Value.ofSpan cursor.integers field (Wire.spans cursor.rest).head? := by
  unfold Value.read Value.ofSpan
  cases field.kind with
  | text => rw [Reading.result_map, Reading.result_text]
  | integer => rw [Reading.result_map, Reading.result_integer]

theorem Value.after_read (field : Field) (cursor : Cursor) :
    (Value.read field).after cursor = cursor.advance.2 := by
  unfold Value.read
  cases field.kind with
  | text => rw [Reading.after_map, Reading.after_text]
  | integer => rw [Reading.after_map, Reading.after_integer]

namespace Layout

def valuesOf (integers : IntegerRule) :
    List Field → List Bytes → Except WireError (List (String × Value))
  | [], _ => .ok []
  | field :: fields, spans => do
    let value ← Value.ofSpan integers field spans.head?
    let values ← valuesOf integers fields spans.tail
    return (field.name, value) :: values

/-- Only a field that refuses its own span makes the values fail. -/
theorem refusal_of_valuesOf {integers : IntegerRule} {cause : WireError} (fields : List Field) :
    ∀ spans : List Bytes, valuesOf integers fields spans = .error cause →
      ∃ field ∈ fields, cause = .malformedText field.name ∨
        ∃ span ∈ spans, cause = .malformedInteger field.name (Utf8.lossy span) := by
  induction fields with
  | nil =>
    intro spans refused
    cases refused
  | cons field fields ih =>
    intro spans refused
    rcases bind_eq_error refused with here | ⟨value, -, rest⟩
    · refine ⟨field, List.mem_cons_self, ?_⟩
      rcases Value.refusal_of_ofSpan here with text | ⟨span, found, integer⟩
      · exact Or.inl text
      · exact Or.inr ⟨span, List.mem_of_mem_head? found, integer⟩
    · rw [bind_pure_comp, map_eq_error_iff] at rest
      obtain ⟨other, among, refusal⟩ := ih spans.tail rest
      refine ⟨other, List.mem_cons_of_mem field among, ?_⟩
      rcases refusal with text | ⟨span, found, integer⟩
      · exact Or.inl text
      · exact Or.inr ⟨span, List.mem_of_mem_tail found, integer⟩

theorem result_readValues (fields : List Field) : ∀ cursor : Cursor,
    (readValues fields).result cursor =
      valuesOf cursor.integers fields (Wire.spans cursor.rest) := by
  induction fields with
  | nil => intro cursor; rfl
  | cons field fields ih =>
    intro cursor
    have rest := ih cursor.advance.2
    rw [Cursor.advance_integers, Cursor.spans_advance] at rest
    simp only [readValues, valuesOf, Reading.result_bind, Reading.result_pure, Value.result_read,
      Value.after_read, rest]
    rfl

theorem decode_eq (layout : Layout) (settings : Settings) (bytes : Bytes) :
    layout.decode settings bytes =
      match Wire.spans bytes with
      | [] => .error .noInput
      | tag :: spans =>
        if tag = Utf8.encode layout.name then
          LabelledMessage.mk layout.name <$> valuesOf settings.integers layout.fields spans
        else .error (.typeMismatch layout.name (Utf8.lossy tag)) := by
  rw [decode, Cursor.enter]
  cases found : Wire.nextSpan? bytes with
  | none =>
    rw [Wire.spans_of_none found]
    rfl
  | some next =>
    obtain ⟨tag, rest⟩ := next
    rw [Wire.spans_of_some found]
    by_cases named : tag = Utf8.encode layout.name
    · simp only [named, if_true]
      exact congrArg (LabelledMessage.mk layout.name <$> ·)
        (result_readValues layout.fields ⟨rest, settings.integers⟩)
    · simp only [named, if_false]
      rfl

end Layout

end PipeCodec
