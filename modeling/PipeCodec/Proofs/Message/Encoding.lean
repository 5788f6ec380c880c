import Mathlib.Data.List.Forall2
import PipeCodec.Proofs.Decimal.Numeral
import PipeCodec.Proofs.Message

/-!
# What encoding a message yields

A message goes out as its tag and one span for each field, every span closed by the delimiter: the
bytes of a text, nothing for a missing one, the canonical numeral of an integer.  A text that holds
the delimiter is refused before the length is looked at, and the first such text is named.  What is
left can only be too long, and then the length of the whole is reported.
-/

set_option autoImplicit false

namespace PipeCodec

/-! ## The span of a value -/

namespace Value

inductive Spelling : Value → Bytes → Prop
  | text (content : String) : Spelling (.text (some content)) (Utf8.encode content)
  | missing : Spelling (.text none) []
  | integer {word : Int32} {numeral : Bytes} : Decimal.Canonical word numeral →
      Spelling (.integer word) numeral

theorem spelling_iff (value : Value) (bytes : Bytes) :
    value.Spelling bytes ↔ bytes = value.span := by
  constructor
  · intro spelled
    cases spelled with
    | text content => rfl
    | missing => rfl
    | integer canonical => exact (Decimal.canonical_iff _ _).mp canonical
  · rintro rfl
    cases value with
    | text content =>
      cases content with
      | none => exact .missing
      | some content => exact .text content
    | integer word => exact .integer ((Decimal.canonical_iff _ _).mpr rfl)

def HoldsDelimiter : Value → Prop
  | text content => '|' ∈ (content.getD "").toList
  | integer _ => False

instance (value : Value) : Decidable value.HoldsDelimiter :=
  match value with
  | text content => inferInstanceAs (Decidable ('|' ∈ (content.getD "").toList))
  | integer _ => inferInstanceAs (Decidable False)

theorem holdsDelimiter_iff (value : Value) :
    value.HoldsDelimiter ↔ Wire.delimiter ∈ value.span := by
  cases value with
  | text content => exact (Wire.delimiter_mem_encode_iff (content.getD "")).symm
  | integer word => exact (iff_false_intro (delimiter_notMem_integerSpan word)).symm

theorem exists_text_span (value : Value) : ∃ text, value.span = Utf8.encode text := by
  cases value with
  | text content => exact ⟨content.getD "", rfl⟩
  | integer word => exact ⟨Decimal.render word, rfl⟩

end Value

/-! ## Rows of closed spans -/

namespace Wire

def closedLength (tag : String) (spans : List Bytes) : Nat :=
  (Utf8.encode tag).length + 1 + (spans.map (·.length + 1)).sum

theorem length_flatMap_closeSpan (row : List Bytes) :
    (row.flatMap closeSpan).length = (row.map (·.length + 1)).sum := by
  induction row with
  | nil => rfl
  | cons span row ih =>
    rw [List.flatMap_cons, List.length_append, ih, List.map_cons, List.sum_cons, closeSpan,
      List.length_append, List.length_singleton]

theorem count_flatMap_closeSpan {row : List Bytes} (free : ∀ span ∈ row, delimiter ∉ span) :
    (row.flatMap closeSpan).count delimiter = row.length := by
  induction row with
  | nil => rfl
  | cons span row ih =>
    obtain ⟨own, others⟩ := List.forall_mem_cons.mp free
    rw [List.flatMap_cons, List.count_append, ih others, closeSpan, List.count_append,
      List.count_eq_zero_of_not_mem own, List.count_singleton_self, List.length_cons]
    omega

theorem exists_text_flatMap_closeSpan {row : List Bytes}
    (texts : ∀ span ∈ row, ∃ text, span = Utf8.encode text) :
    ∃ text, row.flatMap closeSpan = Utf8.encode text := by
  induction row with
  | nil => exact ⟨"", rfl⟩
  | cons span row ih =>
    obtain ⟨⟨first, rfl⟩, others⟩ := List.forall_mem_cons.mp texts
    obtain ⟨rest, written⟩ := ih others
    refine ⟨first ++ "|" ++ rest, ?_⟩
    rw [List.flatMap_cons, written, Utf8.encode_append, Utf8.encode_append]
    rfl

end Wire

namespace LabelledMessage

theorem exists_text_wire (message : LabelledMessage) :
    ∃ text, message.wire = Utf8.encode text := by
  apply Wire.exists_text_flatMap_closeSpan
  intro span member
  rcases List.mem_cons.mp member with rfl | among
  · exact ⟨message.name, rfl⟩
  · obtain ⟨entry, present, rfl⟩ := List.mem_map.mp among
    exact entry.2.exists_text_span

theorem count_delimiter_wire {message : LabelledMessage}
    (plain : Wire.delimiter ∉ Utf8.encode message.name)
    (free : ∀ entry ∈ message.values, Wire.delimiter ∉ entry.2.span) :
    message.wire.count Wire.delimiter = message.values.length + 1 := by
  rw [wire, Wire.count_flatMap_closeSpan (delimiter_notMem_spans plain free), spans,
    List.length_cons, List.length_map]

theorem length_wire (message : LabelledMessage) :
    message.wire.length = Wire.closedLength message.name (message.values.map (·.2.span)) := by
  rw [wire, Wire.length_flatMap_closeSpan, spans, List.map_cons, List.sum_cons, Wire.closedLength]

theorem delimited?_eq (message : LabelledMessage) :
    message.delimited? = message.values.find? (·.2.HoldsDelimiter) := by
  simp only [delimited?, Value.holdsDelimiter_iff]

theorem spelled_iff (values : List (String × Value)) (row : List Bytes) :
    List.Forall₂ (fun entry span => entry.2.Spelling span) values row ↔
      row = values.map (·.2.span) := by
  have spanwise : List.Forall₂ (fun entry span => entry.2.Spelling span) values row ↔
      List.Forall₂ Eq (values.map (·.2.span)) row := by
    rw [List.forall₂_map_left_iff]
    simp only [Value.spelling_iff, eq_comm]
  rw [spanwise, List.forall₂_eq_eq_eq, eq_comm]

end LabelledMessage

/-! ## The outcome -/

namespace Message

theorem exists_text_of_encode {settings : Settings} {message : Message} {bytes : Bytes}
    (encoded : message.encode settings = .ok bytes) : ∃ text, bytes = Utf8.encode text := by
  rw [eq_wire_of_encode encoded]
  exact message.toLabelled.exists_text_wire

/-- The spans of a message are told by its values.  The first text that holds the delimiter is what
encoding fails for; if there is none, the length of tag and spans decides, each with its delimiter.
A wire form is text, ends in the delimiter, and has one more of them than fields. -/
theorem encoding_has_one_outcome (message : Message) (settings : Settings) :
    ∃ spans : List Bytes,
      (∀ row, List.Forall₂ (fun entry span => entry.2.Spelling span) message.entries row ↔
        row = spans) ∧
      (message.encode settings =
        match message.entries.find? (·.2.HoldsDelimiter) with
        | some entry => .error (.delimiterInside entry.1)
        | none =>
          if settings.capacity < Wire.closedLength message.tag spans then
            .error (.overCapacity (Wire.closedLength message.tag spans) settings.capacity)
          else .ok ((Utf8.encode message.tag :: spans).flatMap Wire.closeSpan)) ∧
      ∀ bytes, message.encode settings = .ok bytes →
        bytes.length = Wire.closedLength message.tag spans ∧
        (∃ text, Utf8.decode? bytes = some text) ∧
        bytes.getLast? = some Wire.delimiter ∧
        bytes.count Wire.delimiter = message.entries.length + 1 := by
  refine ⟨message.entries.map (·.2.span), LabelledMessage.spelled_iff message.entries, ?_, ?_⟩
  · rw [encode_eq_sealed, LabelledMessage.sealed, LabelledMessage.delimited?_eq,
      LabelledMessage.length_wire]
    rfl
  · intro bytes encoded
    obtain ⟨text, written⟩ := exists_text_of_encode encoded
    have last := getLast?_of_encode encoded
    rw [encode_eq_sealed] at encoded
    obtain ⟨rfl, free⟩ := LabelledMessage.sealed_eq_ok encoded
    refine ⟨message.toLabelled.length_wire, ⟨text, ?_⟩, last, ?_⟩
    · rw [written, Utf8.decode?_encode]
    · exact LabelledMessage.count_delimiter_wire message.plain_tag free

/-- The character of two bytes just fits. -/
theorem status_at_capacity_is_text :
    (status ⟨-5, some "é"⟩).encode ⟨19, .lenient⟩ = .ok (Utf8.encode "StatusUpdate|-5|é|") ∧
      (∃ text, Utf8.decode? (Utf8.encode "StatusUpdate|-5|é|") = some text) ∧
      (Utf8.encode "StatusUpdate|-5|é|").getLast? = some Wire.delimiter ∧
      (Utf8.encode "StatusUpdate|-5|é|").count Wire.delimiter = 3 := by
  obtain ⟨spans, -, -, written⟩ := encoding_has_one_outcome (status ⟨-5, some "é"⟩) ⟨19, .lenient⟩
  have encoded : (status ⟨-5, some "é"⟩).encode ⟨19, .lenient⟩ =
      .ok (Utf8.encode "StatusUpdate|-5|é|") := by
    decide +kernel
  obtain ⟨-, valid, last, count⟩ := written _ encoded
  exact ⟨encoded, valid, last, count⟩

end Message

end PipeCodec
