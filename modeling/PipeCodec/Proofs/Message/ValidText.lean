import PipeCodec.Proofs.Layout.Refinement
import PipeCodec.Proofs.Message.Dispatch
import PipeCodec.Proofs.Wire.Text

/-!
# Decoding the bytes of a text

Where the bytes as a whole are a text, every piece of them is one.  So no field refuses its piece as
malformed text, and what an error quotes is the piece as it stands, without replacement characters.
This holds of all four ways to decode: against a layout, as a record, by a schema, as a message.  A
message that is read leniently can then fail only for want of input or for its tag.
-/

set_option autoImplicit false

namespace PipeCodec

/-- No text is refused, and an integer that is refused is the first that is not sound in a layout
whose name leads the bytes, and it is quoted with the text of its own piece. -/
structure RefusesNoText {α : Type} (layouts : List Layout) (bytes : Bytes)
    (outcome : Except WireError α) : Prop where
  text : ∀ field, outcome ≠ .error (.malformedText field)
  integer : ∀ field value, outcome = .error (.malformedInteger field value) →
    ∃ layout ∈ layouts, ∃ (pieces : List Bytes) (index : Nat),
      Wire.pieces bytes = Utf8.encode layout.name :: pieces ∧
      Layout.FirstUnsound layout.fields pieces index ⟨field, .integer⟩ (Utf8.encode value)

namespace RefusesNoText

variable {α β : Type} {layouts : List Layout} {bytes : Bytes}

theorem of_beforeFields {cause : WireError} (before : cause.BeforeFields) :
    RefusesNoText layouts bytes (.error cause : Except WireError α) where
  text field refused := by
    cases refused
    cases before
  integer field value refused := by
    cases refused
    cases before

theorem of_map {change : α → β} {outcome : Except WireError α}
    (refuses : RefusesNoText layouts bytes (change <$> outcome)) :
    RefusesNoText layouts bytes outcome where
  text field refused := refuses.text field (map_eq_error_iff.mpr refused)
  integer field value refused := refuses.integer field value (map_eq_error_iff.mpr refused)

theorem of_mem {layout : Layout} {outcome : Except WireError α} (member : layout ∈ layouts)
    (refuses : RefusesNoText [layout] bytes outcome) : RefusesNoText layouts bytes outcome where
  text := refuses.text
  integer field value refused := by
    obtain ⟨other, among, found⟩ := refuses.integer field value refused
    rw [List.mem_singleton.mp among] at found
    exact ⟨layout, member, found⟩

end RefusesNoText

/-! ## Against a layout -/

namespace Layout

variable {fields : List Field} {pieces : List Bytes}

theorem valuesOf_ne_malformedText {integers : IntegerRule}
    (texts : ∀ piece ∈ pieces, ∃ text, piece = Utf8.encode text) (name : String) :
    valuesOf integers fields pieces ≠ .error (.malformedText name) := by
  intro refused
  obtain ⟨index, field, -, here, -⟩ := (valuesOf_eq_error_iff fields pieces).mp refused
  rw [← Field.takes_iff] at here
  generalize piece_at : pieces[index]? = found at here
  cases here with
  | @malformedText piece _ other =>
    obtain ⟨text, written⟩ := texts piece (List.mem_of_getElem? piece_at)
    exact other text written

theorem valuesOf_lenient_ne_malformedInteger (name value : String) :
    valuesOf .lenient fields pieces ≠ .error (.malformedInteger name value) := by
  intro refused
  obtain ⟨index, field, -, here, -⟩ := (valuesOf_eq_error_iff fields pieces).mp refused
  rw [← Field.takes_iff] at here
  generalize pieces[index]? = found at here
  cases here with
  | malformedInteger _ exact _ => cases exact

/-- Texts and lenient integers leave nothing to refuse. -/
theorem exists_valuesOf_lenient (fields : List Field)
    (texts : ∀ piece ∈ pieces, ∃ text, piece = Utf8.encode text) :
    ∃ values, valuesOf .lenient fields pieces = .ok values := by
  cases read : valuesOf .lenient fields pieces with
  | ok values => exact ⟨values, rfl⟩
  | error cause =>
    obtain ⟨field, -, rfl | ⟨span, -, rfl⟩⟩ := refusal_of_valuesOf fields pieces read
    · exact absurd read (valuesOf_ne_malformedText texts field.name)
    · exact absurd read (valuesOf_lenient_ne_malformedInteger field.name (Utf8.lossy span))

theorem refusesNoText_decode (layout : Layout) (settings : Settings) (text : String) :
    RefusesNoText [layout] (Utf8.encode text) (layout.decode settings (Utf8.encode text)) := by
  rw [decode_eq]
  cases row : Wire.spans (Utf8.encode text) with
  | nil => exact .of_beforeFields .noInput
  | cons tag pieces =>
    have texts := Wire.exists_text_of_spans_eq_cons row
    by_cases own : tag = Utf8.encode layout.name
    · simp only [if_pos own]
      constructor
      · intro name refused
        rw [map_eq_error_iff] at refused
        exact valuesOf_ne_malformedText texts name refused
      · intro name value refused
        rw [map_eq_error_iff] at refused
        obtain ⟨index, piece, first, rfl⟩ := firstUnsound_of_valuesOf refused
        obtain ⟨content, written⟩ := texts piece (List.mem_of_getElem? first.piece_at)
        rw [written] at first
        rw [Wire.spans_eq_pieces, own] at row
        refine ⟨layout, List.mem_singleton_self layout, pieces, index, row, ?_⟩
        rw [written, Utf8.lossy_encode]
        exact first
    · simp only [if_neg own]
      exact .of_beforeFields (.typeMismatch _ _)

end Layout

/-! ## By a schema, as a record, as a message -/

theorem beforeFields_of_leadingTag {bytes : Bytes} {cause : WireError}
    (refused : leadingTag bytes = .error cause) : cause.BeforeFields := by
  rw [leadingTag_eq] at refused
  split at refused
  · cases refused
    exact .noInput
  · split at refused
    · cases refused
    · cases refused
      exact .unknownType _

theorem Schema.refusesNoText_decode (schema : Schema) (settings : Settings) (text : String) :
    RefusesNoText schema.layouts (Utf8.encode text)
      (schema.decode settings (Utf8.encode text)) := by
  rw [decode]
  cases tagged : leadingTag (Utf8.encode text) with
  | error cause => exact .of_beforeFields (beforeFields_of_leadingTag tagged)
  | ok tag =>
    simp only [bind, Except.bind]
    cases found : schema.get? tag with
    | none => exact .of_beforeFields (.unknownType tag)
    | some layout =>
      apply RefusesNoText.of_mem (List.mem_of_find?_eq_some found)
      exact layout.refusesNoText_decode settings text

namespace Message

theorem Kind.refusesNoText_decode (kind : Kind) (settings : Settings) (text : String) :
    RefusesNoText [kind.layout] (Utf8.encode text) (kind.decode settings (Utf8.encode text)) := by
  have labelled := kind.layout.refusesNoText_decode settings text
  rw [kind.decode_layout] at labelled
  exact labelled.of_map

theorem refusesNoText_decode (settings : Settings) (text : String) :
    RefusesNoText Schema.ofRecords.layouts (Utf8.encode text)
      (Message.decode settings (Utf8.encode text)) := by
  have labelled := Schema.ofRecords.refusesNoText_decode settings text
  rw [Schema.decode_ofRecords] at labelled
  exact labelled.of_map

theorem exists_decode_lenient {kind : Kind} {text : String} {pieces : List Bytes}
    (row : Wire.spans (Utf8.encode text) = Utf8.encode kind.tag :: pieces) (room : Nat) :
    ∃ message, Message.decode ⟨room, .lenient⟩ (Utf8.encode text) = .ok message := by
  obtain ⟨values, read⟩ := Layout.exists_valuesOf_lenient kind.layout.fields
    (Wire.exists_text_of_spans_eq_cons row)
  have labelled := toLabelled_of_ownTag ⟨room, .lenient⟩ row
  rw [read] at labelled
  obtain ⟨message, decoded, -⟩ := exists_of_map_eq_ok labelled
  exact ⟨message, decoded⟩

/-- A text that is read leniently as a message fails for want of input, or for what stands before
its first bar. -/
theorem decode_lenient_eq_error_iff (text : String) (room : Nat) (cause : WireError) :
    Message.decode ⟨room, .lenient⟩ (Utf8.encode text) = .error cause ↔
      Utf8.encode text = [] ∧ cause = .noInput ∨
      Utf8.encode text ≠ [] ∧ cause = .unknownType (Wire.leadingText text) ∧
        ∀ kind : Kind, Wire.leadingText text ≠ kind.tag := by
  rcases decode_cases (Utf8.encode text) with ⟨empty, refused⟩ | ⟨kind, pieces, row, -⟩ |
    ⟨tag, pieces, row, foreign, refused⟩
  · rw [refused]
    constructor
    · intro same
      exact Or.inl ⟨empty, (Except.error.inj same).symm⟩
    · rintro (⟨-, rfl⟩ | ⟨someByte, -⟩)
      · rfl
      · exact absurd empty someByte
  · obtain ⟨message, decoded⟩ := exists_decode_lenient row room
    have leads := Utf8.encode_injective (Wire.head_spans_encode row)
    rw [decoded]
    constructor
    · intro same
      cases same
    · rintro (⟨empty, -⟩ | ⟨-, -, foreign⟩)
      · exact absurd empty (Wire.ne_nil_of_spans row)
      · exact absurd leads.symm (foreign kind)
  · have leads := Wire.head_spans_encode row
    rw [refused, leads, Utf8.lossy_encode]
    constructor
    · intro same
      refine Or.inr ⟨Wire.ne_nil_of_spans row, (Except.error.inj same).symm, ?_⟩
      intro kind named
      rw [named] at leads
      exact foreign kind leads
    · rintro (⟨empty, -⟩ | ⟨-, rfl, -⟩)
      · exact absurd empty (Wire.ne_nil_of_spans row)
      · rfl

end Message

/-- No decoder refuses a text within a text, and each quotes an integer that it refuses as it
stands.  Read leniently as a message, a text fails only if it is empty or if what stands before its
first bar is the tag of no record type. -/
theorem bytes_of_a_text_are_never_malformed_text {bytes : Bytes} {text : String}
    (valid : Utf8.decode? bytes = some text) :
    (∀ (settings : Settings) (layout : Layout),
      RefusesNoText [layout] bytes (layout.decode settings bytes)) ∧
    (∀ (settings : Settings) (schema : Schema),
      RefusesNoText schema.layouts bytes (schema.decode settings bytes)) ∧
    (∀ (settings : Settings) (kind : Message.Kind),
      RefusesNoText [kind.layout] bytes (kind.decode settings bytes)) ∧
    (∀ settings : Settings,
      RefusesNoText Schema.ofRecords.layouts bytes (Message.decode settings bytes)) ∧
    ∀ (room : Nat) (cause : WireError),
      Message.decode ⟨room, .lenient⟩ bytes = .error cause ↔
        bytes = [] ∧ cause = .noInput ∨
        bytes ≠ [] ∧ cause = .unknownType (Wire.leadingText text) ∧
          ∀ kind : Message.Kind, Wire.leadingText text ≠ kind.tag := by
  obtain rfl := Utf8.encode_of_decode? valid
  refine ⟨?_, ?_, ?_, ?_, Message.decode_lenient_eq_error_iff text⟩
  · intro settings layout
    exact layout.refusesNoText_decode settings text
  · intro settings schema
    exact schema.refusesNoText_decode settings text
  · intro settings kind
    exact kind.refusesNoText_decode settings text
  · intro settings
    exact Message.refusesNoText_decode settings text

/-- The characters around the bars have two and four bytes. -/
theorem letters_around_bars_are_quoted_as_they_stand :
    (Utf8.decode? (Utf8.encode "é|😀|") = some "é|😀|" ∧
      Message.decode ⟨0, .lenient⟩ (Utf8.encode "é|😀|") = .error (.unknownType "é")) ∧
    Message.decode ⟨0, .exact⟩ (Utf8.encode "StatusUpdate|7é|😀") =
        .error (.malformedInteger "code" "7é") ∧
      ∃ layout ∈ Schema.ofRecords.layouts, ∃ (pieces : List Bytes) (index : Nat),
        Wire.pieces (Utf8.encode "StatusUpdate|7é|😀") = Utf8.encode layout.name :: pieces ∧
        Layout.FirstUnsound layout.fields pieces index ⟨"code", .integer⟩ (Utf8.encode "7é") := by
  have valid : Utf8.decode? (Utf8.encode "é|😀|") = some "é|😀|" := Utf8.decode?_encode _
  have refused : Message.decode ⟨0, .exact⟩ (Utf8.encode "StatusUpdate|7é|😀") =
      .error (.malformedInteger "code" "7é") := by
    decide +kernel
  refine ⟨⟨valid, ?_⟩, refused, ?_⟩
  · obtain ⟨-, -, -, -, fails⟩ := bytes_of_a_text_are_never_malformed_text valid
    apply (fails 0 (.unknownType "é")).mpr
    right
    refine ⟨by decide +kernel, by decide +kernel, ?_⟩
    intro kind
    cases kind <;> decide +kernel
  · obtain ⟨-, -, -, quotes, -⟩ :=
      bytes_of_a_text_are_never_malformed_text (Utf8.decode?_encode "StatusUpdate|7é|😀")
    exact (quotes ⟨0, .exact⟩).integer "code" "7é" refused

end PipeCodec
