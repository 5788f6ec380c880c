import PipeCodec.Proofs.Decimal
import PipeCodec.Proofs.Layout.Decoding

/-!
# Encoding as a row of closed spans

The wire form of a labelled message is its name and the span of each value, all of them closed.
Encoding either refuses the first value whose span holds the delimiter, or compares the length of
the whole wire form with the capacity.  What encoding accepts, decoding against the same layout
reads back with empty texts in place of missing ones, and it does so whatever stands behind it.
-/

set_option autoImplicit false

namespace PipeCodec

/-- A write goes on with the frame that the one before it left, unless that one failed. -/
theorem Framing.run_bind {α β : Type} (first : Framing α) (next : α → Framing β) (frame : Frame) :
    (first >>= next).run.run frame =
      match first.run.run frame with
      | (.ok value, written) => (next value).run.run written
      | (.error cause, written) => (.error cause, written) := by
  simp only [ExceptT.run_bind, StateT.run_bind]
  rcases first.run.run frame with ⟨outcome, written⟩
  cases outcome with
  | error cause => rfl
  | ok value => rfl

namespace Value

def span : Value → Bytes
  | text value => Frame.textSpan value
  | integer value => Frame.integerSpan value

theorem delimiter_notMem_integerSpan (value : Int32) :
    Wire.delimiter ∉ Frame.integerSpan value := by
  intro member
  rcases Decimal.isDigit_or_minus_of_mem_render member with digit | minus
  · exact absurd digit (by decide)
  · exact absurd minus (by decide)

/-- A write appends the closed span of its value, or fails and leaves the frame as it was. -/
theorem run_write (field : String) (value : Value) (frame : Frame) :
    (value.write field).run.run frame =
      if Wire.delimiter ∈ value.span then (.error (.delimiterInside field), frame)
      else (.ok (), frame.push value.span) := by
  cases value with
  | text value =>
    rw [write, Framing.text, span]
    split
    · rfl
    · rfl
  | integer value =>
    have free : Wire.delimiter ∉ (integer value).span := delimiter_notMem_integerSpan value
    rw [if_neg free]
    rfl

end Value

def Field.ofEntry (entry : String × Value) : Field :=
  ⟨entry.1, entry.2.kind⟩

namespace LabelledMessage

def layout (message : LabelledMessage) : Layout :=
  ⟨message.name, message.values.map Field.ofEntry⟩

def spans (message : LabelledMessage) : List Bytes :=
  Utf8.encode message.name :: message.values.map (·.2.span)

def wire (message : LabelledMessage) : Bytes :=
  message.spans.flatMap Wire.closeSpan

def delimited? (message : LabelledMessage) : Option (String × Value) :=
  message.values.find? (Wire.delimiter ∈ ·.2.span)

/-- What encoding yields once the name and the fields are those of the layout. -/
def sealed (message : LabelledMessage) (capacity : Nat) : Except WireError Bytes :=
  match message.delimited? with
  | some entry => .error (.delimiterInside entry.1)
  | none =>
    if capacity < message.wire.length then .error (.overCapacity message.wire.length capacity)
    else .ok message.wire

end LabelledMessage

namespace Layout

/-- Values are written up to the first that holds the delimiter, which is refused. -/
theorem run_writeValues (values : List (String × Value)) : ∀ frame : Frame,
    (writeValues values).run.run frame =
      (match values.find? (Wire.delimiter ∈ ·.2.span) with
        | some entry => .error (.delimiterInside entry.1)
        | none => .ok (),
      { frame with
        bytes := frame.bytes ++
          ((values.takeWhile (Wire.delimiter ∉ ·.2.span)).map (·.2.span)).flatMap
            Wire.closeSpan }) := by
  induction values with
  | nil =>
    intro frame
    simp only [List.takeWhile_nil, List.map_nil, List.flatMap_nil, List.append_nil]
    rfl
  | cons entry values ih =>
    intro frame
    obtain ⟨name, value⟩ := entry
    rw [writeValues, Framing.run_bind, Value.run_write]
    by_cases held : Wire.delimiter ∈ value.span
    · rw [if_pos held, List.find?_cons_of_pos (by simpa using held),
        List.takeWhile_cons_of_neg (by simpa using held), List.map_nil, List.flatMap_nil,
        List.append_nil]
    · rw [if_neg held, List.find?_cons_of_neg (by simpa using held),
        List.takeWhile_cons_of_pos (by simpa using held)]
      simp only [ih, Frame.push, List.map_cons, List.flatMap_cons, List.append_assoc]

theorem finish_writeValues (message : LabelledMessage) (capacity : Nat) :
    (writeValues message.values).finish (Frame.start message.name capacity) =
      message.sealed capacity := by
  rw [Framing.finish, run_writeValues, LabelledMessage.sealed, LabelledMessage.delimited?]
  cases first : message.values.find? (Wire.delimiter ∈ ·.2.span) with
  | some entry => rfl
  | none =>
    have free : message.values.takeWhile (Wire.delimiter ∉ ·.2.span) = message.values := by
      rw [List.takeWhile_eq_self_iff]
      simpa using first
    rw [free]
    rfl

theorem firstMismatch?_eq_none_iff (fields : List Field) : ∀ values : List (String × Value),
    firstMismatch? fields values = none ↔ values.map Field.ofEntry = fields := by
  induction fields with
  | nil =>
    intro values
    cases values with
    | nil => simp [firstMismatch?]
    | cons entry values => simp [firstMismatch?]
  | cons field fields ih =>
    intro values
    cases values with
    | nil => simp [firstMismatch?]
    | cons entry values =>
      obtain ⟨name, value⟩ := entry
      obtain ⟨fieldName, kind⟩ := field
      by_cases fits : name = fieldName ∧ value.kind = kind
      · rw [firstMismatch?, if_pos fits, ih values]
        simp [Field.ofEntry, fits]
      · rw [firstMismatch?, if_neg fits]
        simp [Field.ofEntry, fits]

theorem encode_layout (message : LabelledMessage) (settings : Settings)
    (plain : Wire.delimiter ∉ Utf8.encode message.name) :
    message.layout.encode settings message = message.sealed settings.capacity := by
  have sameName : ¬ message.name ≠ message.layout.name := not_not_intro rfl
  have fits : firstMismatch? message.layout.fields message.values = none :=
    (firstMismatch?_eq_none_iff _ _).mpr rfl
  rw [encode, if_neg plain, if_neg sameName, fits]
  exact finish_writeValues message settings.capacity

/-- Encoding accepts a message only against its own layout. -/
theorem eq_layout_of_encode {layout : Layout} {settings : Settings} {message : LabelledMessage}
    {bytes : Bytes} (encoded : layout.encode settings message = .ok bytes) :
    Wire.delimiter ∉ Utf8.encode message.name ∧ layout = message.layout := by
  rw [encode] at encoded
  split at encoded
  · cases encoded
  · next plain =>
    split at encoded
    · cases encoded
    · next sameName =>
      split at encoded
      · cases encoded
      · next fits =>
        refine ⟨plain, ?_⟩
        obtain ⟨name, fields⟩ := layout
        rw [LabelledMessage.layout, (firstMismatch?_eq_none_iff _ _).mp fits,
          not_not.mp sameName]

end Layout

/-! ## Reading back -/

theorem LabelledMessage.sealed_eq_ok {message : LabelledMessage} {capacity : Nat} {bytes : Bytes}
    (accepted : message.sealed capacity = .ok bytes) :
    bytes = message.wire ∧ ∀ entry ∈ message.values, Wire.delimiter ∉ entry.2.span := by
  rw [sealed] at accepted
  split at accepted
  · cases accepted
  · next free =>
    split at accepted
    · cases accepted
    · cases accepted
      refine ⟨rfl, ?_⟩
      simpa [delimited?] using free

theorem LabelledMessage.delimiter_notMem_spans {message : LabelledMessage}
    (plain : Wire.delimiter ∉ Utf8.encode message.name)
    (free : ∀ entry ∈ message.values, Wire.delimiter ∉ entry.2.span) :
    ∀ span ∈ message.spans, Wire.delimiter ∉ span := by
  intro span member
  rcases List.mem_cons.mp member with rfl | among
  · exact plain
  · obtain ⟨entry, present, rfl⟩ := List.mem_map.mp among
    exact free entry present

theorem LabelledMessage.spans_wire (message : LabelledMessage) (rest : Bytes)
    (plain : Wire.delimiter ∉ Utf8.encode message.name)
    (free : ∀ entry ∈ message.values, Wire.delimiter ∉ entry.2.span) :
    Wire.spans (message.wire ++ rest) = message.spans ++ Wire.spans rest :=
  Wire.spans_flatMap_closeSpan message.spans rest (delimiter_notMem_spans plain free)

theorem LabelledMessage.leadingTag_wire (message : LabelledMessage) (rest : Bytes)
    (plain : Wire.delimiter ∉ Utf8.encode message.name)
    (free : ∀ entry ∈ message.values, Wire.delimiter ∉ entry.2.span) :
    leadingTag (message.wire ++ rest) = .ok message.name := by
  rw [leadingTag_eq, message.spans_wire rest plain free, LabelledMessage.spans, List.cons_append]
  simp only [Utf8.decode?_encode]

theorem Value.ofSpan_span (integers : IntegerRule) (name : String) (value : Value) :
    Value.ofSpan integers (Field.ofEntry (name, value)) (some value.span) =
      .ok value.normalize := by
  cases value with
  | text value => simp [ofSpan, Field.ofEntry, kind, span, textOfSpan, Frame.textSpan, normalize]
  | integer value =>
    cases integers with
    | lenient =>
      simp [ofSpan, Field.ofEntry, kind, span, integerOfSpan, Frame.integerSpan, normalize]
    | exact =>
      simp [ofSpan, Field.ofEntry, kind, span, integerOfSpan, Frame.integerSpan, normalize]

theorem Layout.valuesOf_spans (integers : IntegerRule) (values : List (String × Value))
    (extra : List Bytes) :
    valuesOf integers (values.map Field.ofEntry) (values.map (·.2.span) ++ extra) =
      .ok (values.map fun entry => (entry.1, entry.2.normalize)) := by
  induction values with
  | nil => rfl
  | cons entry values ih =>
    obtain ⟨name, value⟩ := entry
    simp only [List.map_cons, List.cons_append, valuesOf, List.head?_cons, List.tail_cons,
      Value.ofSpan_span, ih]
    rfl

/-- The wire form of a message decodes against its layout, and what follows it is never looked
at. -/
theorem Layout.decode_wire (message : LabelledMessage) (settings : Settings) (rest : Bytes)
    (plain : Wire.delimiter ∉ Utf8.encode message.name)
    (free : ∀ entry ∈ message.values, Wire.delimiter ∉ entry.2.span) :
    message.layout.decode settings (message.wire ++ rest) = .ok message.normalize := by
  rw [decode_eq, message.spans_wire rest plain free, LabelledMessage.spans, List.cons_append]
  simp only [LabelledMessage.layout, if_true, valuesOf_spans]
  rfl

end PipeCodec
