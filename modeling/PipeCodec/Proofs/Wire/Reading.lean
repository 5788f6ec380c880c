import PipeCodec.Proofs.Wire.Span
import PipeCodec.Wire.Cursor

/-!
# What reading a field yields

A read is given by its result and by the cursor after it.  Both compose along a sequence of reads,
and each read takes one span off the front of those that are left.  A sequence of steps that may
fail succeeds only if each of them does, and fails as the first of them that fails.
-/

set_option autoImplicit false

namespace PipeCodec

section Steps

variable {ε α β : Type}

theorem exists_of_bind_eq_ok {first : Except ε α} {next : α → Except ε β} {result : β}
    (succeeds : first >>= next = .ok result) :
    ∃ value, first = .ok value ∧ next value = .ok result := by
  cases first with
  | error cause => cases succeeds
  | ok value => exact ⟨value, rfl, succeeds⟩

theorem exists_of_map_eq_ok {change : α → β} {first : Except ε α} {result : β}
    (succeeds : change <$> first = .ok result) :
    ∃ value, first = .ok value ∧ change value = result := by
  cases first with
  | error cause => cases succeeds
  | ok value => exact ⟨value, rfl, Except.ok.inj succeeds⟩

theorem bind_eq_error {first : Except ε α} {next : α → Except ε β} {cause : ε}
    (fails : first >>= next = .error cause) :
    first = .error cause ∨ ∃ value, first = .ok value ∧ next value = .error cause := by
  cases first with
  | error other =>
    cases fails
    exact Or.inl rfl
  | ok value => exact Or.inr ⟨value, rfl, fails⟩

theorem map_eq_error_iff {change : α → β} {first : Except ε α} {cause : ε} :
    change <$> first = .error cause ↔ first = .error cause := by
  cases first with
  | error other => simp
  | ok value => exact ⟨nofun, nofun⟩

end Steps

namespace Cursor

theorem advance_fst (cursor : Cursor) :
    cursor.advance.1 = (Wire.spans cursor.rest).head? := by
  rw [advance]
  cases found : Wire.nextSpan? cursor.rest with
  | none => simp only [Wire.spans_of_none found, List.head?_nil]
  | some next =>
    obtain ⟨span, rest⟩ := next
    simp only [Wire.spans_of_some found, List.head?_cons]

theorem spans_advance (cursor : Cursor) :
    Wire.spans cursor.advance.2.rest = (Wire.spans cursor.rest).tail := by
  rw [advance]
  cases found : Wire.nextSpan? cursor.rest with
  | none => simp only [Wire.spans_of_none found, List.tail_nil]
  | some next =>
    obtain ⟨span, rest⟩ := next
    simp only [Wire.spans_of_some found, List.tail_cons]

@[simp]
theorem advance_integers (cursor : Cursor) : cursor.advance.2.integers = cursor.integers := by
  rw [advance]
  split <;> rfl

end Cursor

namespace Reading

variable {α β : Type}

/-- The cursor after a read, whether or not it was accepted. -/
def after (reading : Reading α) (cursor : Cursor) : Cursor :=
  (reading.run.run cursor).2

@[simp]
theorem result_pure (value : α) (cursor : Cursor) :
    (pure value : Reading α).result cursor = .ok value := rfl

@[simp]
theorem result_bind (reading : Reading α) (next : α → Reading β) (cursor : Cursor) :
    (reading >>= next).result cursor =
      reading.result cursor >>= fun value => (next value).result (reading.after cursor) := by
  simp only [result, after, ExceptT.run_bind, StateT.run_bind]
  rcases outcome : reading.run.run cursor with ⟨result, moved⟩
  cases result with
  | error cause => rfl
  | ok value => rfl

@[simp]
theorem result_map (change : α → β) (reading : Reading α) (cursor : Cursor) :
    (change <$> reading).result cursor = change <$> reading.result cursor := by
  simp only [result, ExceptT.run_map, StateT.run_map]
  rcases outcome : reading.run.run cursor with ⟨result, moved⟩
  cases result with
  | error cause => rfl
  | ok value => rfl

@[simp]
theorem after_map (change : α → β) (reading : Reading α) (cursor : Cursor) :
    (change <$> reading).after cursor = reading.after cursor := by
  simp only [after, ExceptT.run_map, StateT.run_map]
  rfl

theorem result_text (field : String) (cursor : Cursor) :
    (text field).result cursor = textOfSpan field (Wire.spans cursor.rest).head? := by
  rw [← Cursor.advance_fst]
  rfl

theorem result_integer (field : String) (cursor : Cursor) :
    (integer field).result cursor =
      integerOfSpan cursor.integers field (Wire.spans cursor.rest).head? := by
  rw [← Cursor.advance_fst]
  rfl

@[simp]
theorem after_text (field : String) (cursor : Cursor) :
    (text field).after cursor = cursor.advance.2 := rfl

@[simp]
theorem after_integer (field : String) (cursor : Cursor) :
    (integer field).after cursor = cursor.advance.2 := rfl

end Reading

theorem leadingTag_eq (bytes : Bytes) :
    leadingTag bytes =
      match Wire.spans bytes with
      | [] => .error .noInput
      | tag :: _ =>
        match Utf8.decode? tag with
        | some text => .ok text
        | none => .error (.unknownType (Utf8.lossy tag)) := by
  rw [leadingTag]
  cases found : Wire.nextSpan? bytes with
  | none => simp only [Wire.spans_of_none found]
  | some next =>
    obtain ⟨tag, rest⟩ := next
    cases decoded : Utf8.decode? tag with
    | none => simp only [Wire.spans_of_some found, decoded]
    | some text => simp only [Wire.spans_of_some found, decoded]

end PipeCodec
