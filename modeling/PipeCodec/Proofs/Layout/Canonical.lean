import PipeCodec.Proofs.Layout.Encoding

/-!
# The canonical wire form of a decoded message

Bytes of any kind may decode against a layout: cut short, with surplus spans, with blanks, signs and
leading zeros in their integers.  What they decode to fits the layout again and holds the delimiter
nowhere, because every value comes out of one span or out of none.  So it encodes, but for the
capacity, and its wire form is canonical: it decodes to the same message with empty texts for
missing ones, which has the same wire form.  That form is longer than the bytes at most by what
missing and empty spans cost when they are written out.
-/

set_option autoImplicit false

namespace PipeCodec

/-- The one wire form of a message.  Encoding the message gives it wherever it fits, decoding it
gives the normal form of the message, and that has the same wire form. -/
structure CanonicalForm {α : Type} (encode : Settings → α → Except WireError Bytes)
    (decode : Settings → Bytes → Except WireError α) (message normal : α) (canonical : Bytes) :
    Prop where
  encodes : ∀ writing : Settings, encode writing message =
    if canonical.length ≤ writing.capacity then .ok canonical
    else .error (.overCapacity canonical.length writing.capacity)
  decodes : ∀ reading : Settings, decode reading canonical = .ok normal
  stable : ∀ writing : Settings, canonical.length ≤ writing.capacity →
    encode writing normal = .ok canonical

/-- The most by which a span grows, or comes to be, when a value of this kind is written out. -/
def FieldKind.growth : FieldKind → Nat
  | .text => 1
  | .integer => 2

theorem textSpan_of_textOfSpan {field : String} {span : Option Bytes} {content : Option String}
    (read : textOfSpan field span = .ok content) : Frame.textSpan content = span.getD [] := by
  cases span with
  | none =>
    cases read
    rfl
  | some bytes =>
    cases decoded : Utf8.decode? bytes with
    | none => simp [textOfSpan, decoded] at read
    | some text =>
      simp only [textOfSpan, decoded] at read
      cases read
      exact Utf8.encode_of_decode? decoded

theorem length_integerSpan_of_integerOfSpan {integers : IntegerRule} {field : String}
    {span : Option Bytes} {word : Int32} (read : integerOfSpan integers field span = .ok word) :
    (Frame.integerSpan word).length ≤ max 1 (span.getD []).length := by
  cases span with
  | none =>
    cases read
    decide
  | some bytes =>
    have bound := Decimal.length_render_readLenient bytes
    cases integers with
    | lenient =>
      cases read
      exact bound
    | exact =>
      cases decoded : Decimal.readExact? bytes with
      | none => simp [integerOfSpan, decoded] at read
      | some exactWord =>
        simp only [integerOfSpan, decoded] at read
        cases read
        rw [Decimal.readLenient_of_readExact? decoded] at bound
        exact bound

namespace Value

/-- What is read for a field can be written for it, and in so many bytes. -/
theorem written_of_ofSpan {integers : IntegerRule} {field : Field} {found : Option Bytes}
    {value : Value} (free : Wire.delimiter ∉ found.getD [])
    (read : ofSpan integers field found = .ok value) :
    value.kind = field.kind ∧ Wire.delimiter ∉ value.span ∧
      (Wire.closeSpan value.span).length ≤ (found.getD []).length + field.kind.growth := by
  rw [Wire.closeSpan, List.length_append, List.length_singleton]
  obtain ⟨name, kind⟩ := field
  cases kind with
  | text =>
    obtain ⟨content, taken, rfl⟩ := exists_of_map_eq_ok read
    rw [span, textSpan_of_textOfSpan taken]
    exact ⟨rfl, free, Nat.le_refl _⟩
  | integer =>
    obtain ⟨word, taken, rfl⟩ := exists_of_map_eq_ok read
    have bound := length_integerSpan_of_integerOfSpan taken
    rw [span, FieldKind.growth]
    exact ⟨rfl, delimiter_notMem_integerSpan word, by omega⟩

@[simp]
theorem span_normalize (value : Value) : value.normalize.span = value.span := by
  cases value with
  | text value => rfl
  | integer value => rfl

@[simp]
theorem kind_normalize (value : Value) : value.normalize.kind = value.kind := by
  cases value with
  | text value => rfl
  | integer value => rfl

end Value

namespace LabelledMessage

theorem wire_normalize (message : LabelledMessage) : message.normalize.wire = message.wire := by
  simp [wire, spans, normalize, Function.comp_def]

theorem layout_normalize (message : LabelledMessage) :
    message.normalize.layout = message.layout := by
  simp [layout, normalize, Field.ofEntry, Function.comp_def]

theorem sealed_of_free {message : LabelledMessage}
    (free : ∀ entry ∈ message.values, Wire.delimiter ∉ entry.2.span) (capacity : Nat) :
    message.sealed capacity =
      if message.wire.length ≤ capacity then .ok message.wire
      else .error (.overCapacity message.wire.length capacity) := by
  have none : message.delimited? = none := by simpa [delimited?] using free
  rw [sealed, none]
  by_cases fits : message.wire.length ≤ capacity
  · simp only [if_pos fits, if_neg (Nat.not_lt.mpr fits)]
  · simp only [if_neg fits, if_pos (Nat.lt_of_not_le fits)]

theorem sealed_normalize {message : LabelledMessage}
    (free : ∀ entry ∈ message.values, Wire.delimiter ∉ entry.2.span) (capacity : Nat) :
    message.normalize.sealed capacity = message.sealed capacity := by
  have normalFree : ∀ entry ∈ message.normalize.values, Wire.delimiter ∉ entry.2.span := by
    intro entry member
    obtain ⟨original, among, rfl⟩ := List.mem_map.mp member
    rw [Value.span_normalize]
    exact free original among
  rw [sealed_of_free free, sealed_of_free normalFree, wire_normalize]

end LabelledMessage

namespace Layout

theorem valuesOf_cons_eq_ok {integers : IntegerRule} {field : Field} {fields : List Field}
    {spans : List Bytes} {values : List (String × Value)}
    (read : valuesOf integers (field :: fields) spans = .ok values) :
    ∃ value others, Value.ofSpan integers field spans.head? = .ok value ∧
      valuesOf integers fields spans.tail = .ok others ∧
      values = (field.name, value) :: others := by
  obtain ⟨value, first, further⟩ := exists_of_bind_eq_ok read
  obtain ⟨others, rest, whole⟩ := exists_of_bind_eq_ok further
  exact ⟨value, others, first, rest, (Except.ok.inj whole).symm⟩

theorem written_of_valuesOf {integers : IntegerRule} (fields : List Field) :
    ∀ {spans : List Bytes} {values : List (String × Value)},
      (∀ span ∈ spans, Wire.delimiter ∉ span) → valuesOf integers fields spans = .ok values →
      values.map Field.ofEntry = fields ∧
        (∀ entry ∈ values, Wire.delimiter ∉ entry.2.span) ∧
        ((values.map (·.2.span)).flatMap Wire.closeSpan).length ≤
          (spans.flatMap Wire.closeSpan).length + (fields.map (·.kind.growth)).sum := by
  -- Each field takes one span off the row, so both sides of the bound shrink together.
  induction fields with
  | nil =>
    intro spans values free read
    cases read
    simp
  | cons field fields ih =>
    intro spans values free read
    obtain ⟨value, others, first, rest, rfl⟩ := valuesOf_cons_eq_ok read
    have headFree : Wire.delimiter ∉ spans.head?.getD [] := by
      cases spans with
      | nil => simp
      | cons span spans => exact free span List.mem_cons_self
    have tailFree : ∀ span ∈ spans.tail, Wire.delimiter ∉ span := fun span member =>
      free span (List.mem_of_mem_tail member)
    have split : (spans.head?.getD []).length + (spans.tail.flatMap Wire.closeSpan).length ≤
        (spans.flatMap Wire.closeSpan).length := by
      cases spans with
      | nil => simp
      | cons span spans => simp [Wire.closeSpan]
    obtain ⟨kind, valueFree, valueLength⟩ := Value.written_of_ofSpan headFree first
    obtain ⟨fits, othersFree, othersLength⟩ := ih tailFree rest
    refine ⟨?_, List.forall_mem_cons.mpr ⟨valueFree, othersFree⟩, ?_⟩
    · rw [List.map_cons, fits, Field.ofEntry, kind]
    · simp only [List.map_cons, List.flatMap_cons, List.length_append, List.sum_cons]
      omega

theorem sum_growth (fields : List Field) :
    (fields.map (·.kind.growth)).sum =
      fields.countP (·.kind = .text) + 2 * fields.countP (·.kind = .integer) := by
  induction fields with
  | nil => rfl
  | cons field fields ih =>
    rw [List.map_cons, List.sum_cons, ih]
    cases kind : field.kind <;> simp [kind, FieldKind.growth] <;> omega

theorem written_of_decode {layout : Layout} {settings : Settings} {bytes : Bytes}
    {message : LabelledMessage} (decoded : layout.decode settings bytes = .ok message) :
    layout = message.layout ∧ Wire.delimiter ∉ Utf8.encode message.name ∧
      (∀ entry ∈ message.values, Wire.delimiter ∉ entry.2.span) ∧
      message.wire.length ≤ bytes.length + 1 + (layout.fields.map (·.kind.growth)).sum := by
  have free := Wire.delimiter_notMem_spans bytes
  have total := Wire.length_flatMap_spans bytes
  rw [decode_eq] at decoded
  cases row : Wire.spans bytes with
  | nil => simp [row] at decoded
  | cons tag spans =>
    rw [row] at free total
    obtain ⟨tagFree, spansFree⟩ := List.forall_mem_cons.mp free
    simp only [row] at decoded
    split_ifs at decoded with tagged
    obtain ⟨values, read, rfl⟩ := exists_of_map_eq_ok decoded
    obtain ⟨fits, valuesFree, length⟩ := written_of_valuesOf layout.fields spansFree read
    refine ⟨?_, ?_, valuesFree, ?_⟩
    · rw [LabelledMessage.layout, fits]
    · rw [← tagged]
      exact tagFree
    · simp only [LabelledMessage.wire, LabelledMessage.spans, List.flatMap_cons,
        List.length_append, ← tagged] at total ⊢
      omega

/-- Whatever decodes against a layout, with any names and fields, encodes against it but for the
capacity, and its wire form is canonical. -/
theorem decoded_labelled_message_reencodes {layout : Layout} {reading : Settings} {bytes : Bytes}
    {message : LabelledMessage} (decoded : layout.decode reading bytes = .ok message) :
    ∃ canonical : Bytes,
      CanonicalForm layout.encode layout.decode message message.normalize canonical ∧
      canonical.length ≤ bytes.length + 1 + layout.fields.countP (·.kind = .text) +
        2 * layout.fields.countP (·.kind = .integer) := by
  obtain ⟨fits, plain, free, length⟩ := written_of_decode decoded
  rw [sum_growth] at length
  refine ⟨message.wire, ⟨?_, ?_, ?_⟩, by omega⟩
  · intro writing
    rw [fits, encode_layout message writing plain, LabelledMessage.sealed_of_free free]
  · intro settings
    have readBack := decode_wire message settings [] plain free
    rwa [List.append_nil, ← fits] at readBack
  · intro writing room
    rw [fits, ← message.layout_normalize, encode_layout message.normalize writing plain,
      LabelledMessage.sealed_normalize free, LabelledMessage.sealed_of_free free, if_pos room]

theorem sloppy_reading_reencodes :
    Layout.decode ⟨"P", [⟨"a|b", .integer⟩, ⟨"a|b", .text⟩, ⟨"c", .integer⟩]⟩ ⟨0, .lenient⟩
        (Utf8.encode "P| +007x") =
      .ok ⟨"P", [("a|b", .integer 7), ("a|b", .text none), ("c", .integer 0)]⟩ ∧
    ∃ canonical : Bytes,
      CanonicalForm (Layout.encode ⟨"P", [⟨"a|b", .integer⟩, ⟨"a|b", .text⟩, ⟨"c", .integer⟩]⟩)
        (Layout.decode ⟨"P", [⟨"a|b", .integer⟩, ⟨"a|b", .text⟩, ⟨"c", .integer⟩]⟩)
        ⟨"P", [("a|b", .integer 7), ("a|b", .text none), ("c", .integer 0)]⟩
        ⟨"P", [("a|b", .integer 7), ("a|b", .text (some "")), ("c", .integer 0)]⟩ canonical ∧
      canonical.length ≤ 8 + 1 + 1 + 2 * 2 := by
  have decoded : Layout.decode ⟨"P", [⟨"a|b", .integer⟩, ⟨"a|b", .text⟩, ⟨"c", .integer⟩]⟩
      ⟨0, .lenient⟩ (Utf8.encode "P| +007x") =
        .ok ⟨"P", [("a|b", .integer 7), ("a|b", .text none), ("c", .integer 0)]⟩ := by
    decide +kernel
  exact ⟨decoded, decoded_labelled_message_reencodes decoded⟩

end Layout

end PipeCodec
