import PipeCodec.Proofs.Decimal.Numeral
import PipeCodec.Proofs.Layout.Canonical

/-!
# Decoding told piece by piece

Decoding against a layout is settled by the pieces between the delimiters and by nothing else.  The
first piece must be the name, every field looks at the one piece at its own position, and what it
takes from it is said here without a scanner: a text is the text whose bytes the piece is, an
integer is the number that stands in front of the piece or, if integers are exact, the word of which
the piece is a numeral.  The first field that takes nothing from its piece decides, and no field
looks behind the last one.
-/

set_option autoImplicit false

namespace PipeCodec

inductive Field.Takes (integers : IntegerRule) (field : Field) :
    Option Bytes → Except WireError Value → Prop
  | missingText : field.kind = .text → Takes integers field none (.ok (.text none))
  | text (content : String) : field.kind = .text →
      Takes integers field (some (Utf8.encode content)) (.ok (.text (some content)))
  | malformedText {piece : Bytes} : field.kind = .text →
      (∀ content, piece ≠ Utf8.encode content) →
      Takes integers field (some piece) (.error (.malformedText field.name))
  | missingInteger : field.kind = .integer → Takes integers field none (.ok (.integer 0))
  | nearest (piece : Bytes) : field.kind = .integer → integers = .lenient →
      Takes integers field (some piece)
        (.ok (.integer (Int32.ofIntClamp (Decimal.leadingNumber piece))))
  | exact {piece : Bytes} {word : Int32} : field.kind = .integer → integers = .exact →
      Decimal.Denotes piece word.toInt →
      Takes integers field (some piece) (.ok (.integer word))
  | malformedInteger {piece : Bytes} : field.kind = .integer → integers = .exact →
      (∀ word : Int32, ¬ Decimal.Denotes piece word.toInt) →
      Takes integers field (some piece)
        (.error (.malformedInteger field.name (Utf8.lossy piece)))

inductive Layout.Decodes (integers : IntegerRule) (layout : Layout) :
    Bytes → Except WireError LabelledMessage → Prop
  | noInput : Decodes integers layout [] (.error .noInput)
  | foreign {bytes tag : Bytes} {pieces : List Bytes} : Wire.pieces bytes = tag :: pieces →
      tag ≠ Utf8.encode layout.name →
      Decodes integers layout bytes (.error (.typeMismatch layout.name (Utf8.lossy tag)))
  | refused {bytes : Bytes} {pieces : List Bytes} {index : Nat} {field : Field}
      {cause : WireError} : Wire.pieces bytes = Utf8.encode layout.name :: pieces →
      layout.fields[index]? = some field → field.Takes integers pieces[index]? (.error cause) →
      (∀ earlier < index, ∀ other, layout.fields[earlier]? = some other →
        ∃ value, other.Takes integers pieces[earlier]? (.ok value)) →
      Decodes integers layout bytes (.error cause)
  | accepted {bytes : Bytes} {pieces : List Bytes} {values : List (String × Value)} :
      Wire.pieces bytes = Utf8.encode layout.name :: pieces →
      values.length = layout.fields.length →
      (∀ (index : Nat) (field : Field), layout.fields[index]? = some field →
        ∃ value, values[index]? = some (field.name, value) ∧
          field.Takes integers pieces[index]? (.ok value)) →
      Decodes integers layout bytes (.ok ⟨layout.name, values⟩)

/-! ## One field -/

theorem Utf8.decode?_eq_none_iff (bytes : Bytes) :
    decode? bytes = none ↔ ∀ text, bytes ≠ encode text := by
  constructor
  · rintro malformed text rfl
    rw [decode?_encode] at malformed
    cases malformed
  · intro other
    cases read : decode? bytes with
    | none => rfl
    | some text => exact absurd (encode_of_decode? read).symm (other text)

namespace Field

theorem takes_textOfSpan (integers : IntegerRule) {field : Field} (kind : field.kind = .text)
    (piece : Option Bytes) :
    field.Takes integers piece (Value.text <$> textOfSpan field.name piece) := by
  cases piece with
  | none => exact .missingText kind
  | some piece =>
    rw [textOfSpan]
    cases read : Utf8.decode? piece with
    | none => exact .malformedText kind ((Utf8.decode?_eq_none_iff piece).mp read)
    | some content =>
      rw [← Utf8.encode_of_decode? read]
      exact .text content kind

theorem takes_integerOfSpan (integers : IntegerRule) {field : Field}
    (kind : field.kind = .integer) (piece : Option Bytes) :
    field.Takes integers piece (Value.integer <$> integerOfSpan integers field.name piece) := by
  cases piece with
  | none => exact .missingInteger kind
  | some piece =>
    cases integers with
    | lenient =>
      simp only [integerOfSpan, Decimal.readLenient_eq_nearest]
      exact .nearest piece kind rfl
    | exact =>
      simp only [integerOfSpan]
      cases read : Decimal.readExact? piece with
      | none =>
        apply Takes.malformedInteger kind rfl
        intro word denoted
        rw [(Decimal.readExact?_eq_some_iff piece word).mpr denoted] at read
        cases read
      | some word => exact .exact kind rfl ((Decimal.readExact?_eq_some_iff piece word).mp read)

theorem takes_ofSpan (integers : IntegerRule) (field : Field) (piece : Option Bytes) :
    field.Takes integers piece (Value.ofSpan integers field piece) := by
  rw [Value.ofSpan]
  cases kind : field.kind with
  | text => exact takes_textOfSpan integers kind piece
  | integer => exact takes_integerOfSpan integers kind piece

theorem ofSpan_of_takes {integers : IntegerRule} {field : Field} {piece : Option Bytes}
    {outcome : Except WireError Value} (taken : field.Takes integers piece outcome) :
    Value.ofSpan integers field piece = outcome := by
  rw [Value.ofSpan]
  cases taken with
  | missingText kind =>
    rw [kind]
    rfl
  | text content kind =>
    simp only [kind, textOfSpan, Utf8.decode?_encode]
    rfl
  | malformedText kind other =>
    simp only [kind, textOfSpan, (Utf8.decode?_eq_none_iff _).mpr other]
    rfl
  | missingInteger kind =>
    rw [kind]
    rfl
  | nearest piece kind lenient =>
    simp only [kind, lenient, integerOfSpan, Decimal.readLenient_eq_nearest]
    rfl
  | @exact piece word kind exact denoted =>
    simp only [kind, exact, integerOfSpan,
      (Decimal.readExact?_eq_some_iff piece word).mpr denoted]
    rfl
  | @malformedInteger piece kind exact other =>
    have unread : Decimal.readExact? piece = none := by
      rw [Option.eq_none_iff_forall_ne_some]
      intro word read
      exact other word ((Decimal.readExact?_eq_some_iff piece word).mp read)
    simp only [kind, exact, integerOfSpan, unread]
    rfl

theorem takes_iff {integers : IntegerRule} {field : Field} {piece : Option Bytes}
    {outcome : Except WireError Value} :
    field.Takes integers piece outcome ↔ Value.ofSpan integers field piece = outcome := by
  constructor
  · exact ofSpan_of_takes
  · rintro rfl
    exact takes_ofSpan integers field piece

end Field

/-! ## All fields -/

namespace Layout

theorem valuesOf_eq_ok_iff {integers : IntegerRule} (fields : List Field) :
    ∀ (pieces : List Bytes) (values : List (String × Value)),
      valuesOf integers fields pieces = .ok values ↔
        values.length = fields.length ∧
          ∀ (index : Nat) (field : Field), fields[index]? = some field →
            ∃ value, values[index]? = some (field.name, value) ∧
              Value.ofSpan integers field pieces[index]? = .ok value := by
  induction fields with
  | nil =>
    intro pieces values
    constructor
    · intro read
      cases read
      exact ⟨rfl, fun index field found => by cases found⟩
    · rintro ⟨length, -⟩
      rw [List.eq_nil_of_length_eq_zero length]
      rfl
  | cons field fields ih =>
    intro pieces values
    constructor
    · intro read
      obtain ⟨value, others, first, rest, rfl⟩ := valuesOf_cons_eq_ok read
      obtain ⟨length, each⟩ := (ih pieces.tail others).mp rest
      refine ⟨by rw [List.length_cons, length, List.length_cons], ?_⟩
      intro index other found
      cases index with
      | zero =>
        cases found
        rw [List.head?_eq_getElem?] at first
        exact ⟨value, rfl, first⟩
      | succ index =>
        obtain ⟨taken, stored, own⟩ := each index other found
        rw [List.getElem?_tail] at own
        exact ⟨taken, stored, own⟩
    · rintro ⟨length, each⟩
      cases values with
      | nil => cases length
      | cons entry others =>
        obtain ⟨value, stored, first⟩ := each 0 field rfl
        cases stored
        have rest : valuesOf integers fields pieces.tail = .ok others := by
          refine (ih pieces.tail others).mpr ⟨Nat.succ.inj length, ?_⟩
          intro index other found
          rw [List.getElem?_tail]
          exact each (index + 1) other found
        rw [valuesOf, List.head?_eq_getElem?, first, rest]
        rfl

theorem valuesOf_eq_error_iff {integers : IntegerRule} {cause : WireError} (fields : List Field) :
    ∀ pieces : List Bytes,
      valuesOf integers fields pieces = .error cause ↔
        ∃ (index : Nat) (field : Field), fields[index]? = some field ∧
          Value.ofSpan integers field pieces[index]? = .error cause ∧
          ∀ earlier < index, ∀ other, fields[earlier]? = some other →
            ∃ value, Value.ofSpan integers other pieces[earlier]? = .ok value := by
  induction fields with
  | nil =>
    intro pieces
    constructor
    · intro refused
      cases refused
    · rintro ⟨index, field, found, -⟩
      cases found
  | cons field fields ih =>
    intro pieces
    have next := ih pieces.tail
    simp only [List.getElem?_tail] at next
    rw [valuesOf, List.head?_eq_getElem?]
    constructor
    · intro refused
      rcases bind_eq_error refused with here | ⟨value, first, rest⟩
      · exact ⟨0, field, rfl, here, fun earlier before => absurd before (Nat.not_lt_zero earlier)⟩
      · rw [bind_pure_comp, map_eq_error_iff] at rest
        obtain ⟨index, other, found, here, before⟩ := next.mp rest
        refine ⟨index + 1, other, found, here, ?_⟩
        intro earlier less
        cases earlier with
        | zero =>
          rintro own ⟨⟩
          exact ⟨value, first⟩
        | succ earlier => exact before earlier (Nat.lt_of_succ_lt_succ less)
    · rintro ⟨index, other, found, here, before⟩
      cases index with
      | zero =>
        cases found
        rw [here]
        rfl
      | succ index =>
        obtain ⟨value, first⟩ := before 0 (Nat.succ_pos index) field rfl
        have rest := next.mpr ⟨index, other, found, here, fun earlier less =>
          before (earlier + 1) (Nat.succ_lt_succ less)⟩
        rw [first, rest]
        rfl

/-- Each field takes one piece, so only so many pieces matter. -/
theorem valuesOf_take (integers : IntegerRule) (fields : List Field) : ∀ pieces : List Bytes,
    valuesOf integers fields (pieces.take fields.length) = valuesOf integers fields pieces := by
  induction fields with
  | nil => intro pieces; rfl
  | cons field fields ih =>
    intro pieces
    cases pieces with
    | nil => rfl
    | cons piece pieces =>
      simp only [List.length_cons, List.take_succ_cons, valuesOf, List.head?_cons, List.tail_cons,
        ih]

/-! ## Whole messages -/

theorem decode_eq_of_take (layout : Layout) (settings : Settings) (bytes : Bytes) :
    layout.decode settings bytes =
      match (Wire.pieces bytes).take (layout.fields.length + 1) with
      | [] => .error .noInput
      | tag :: pieces =>
        if tag = Utf8.encode layout.name then
          LabelledMessage.mk layout.name <$> valuesOf settings.integers layout.fields pieces
        else .error (.typeMismatch layout.name (Utf8.lossy tag)) := by
  rw [decode_eq, Wire.spans_eq_pieces]
  cases Wire.pieces bytes with
  | nil => rfl
  | cons tag pieces => simp only [List.take_succ_cons, valuesOf_take]

theorem decodes_decode (layout : Layout) (settings : Settings) (bytes : Bytes) :
    layout.Decodes settings.integers bytes (layout.decode settings bytes) := by
  by_cases empty : bytes = []
  · rw [empty]
    exact .noInput
  · obtain ⟨tag, pieces, row⟩ := Wire.exists_spans_eq_cons empty
    simp only [decode_eq, row]
    rw [Wire.spans_eq_pieces] at row
    split_ifs with named
    · rw [named] at row
      cases read : valuesOf settings.integers layout.fields pieces with
      | error cause =>
        obtain ⟨index, field, found, here, before⟩ := (valuesOf_eq_error_iff _ _).mp read
        simp only [← Field.takes_iff] at here before
        exact .refused row found here before
      | ok values =>
        obtain ⟨length, each⟩ := (valuesOf_eq_ok_iff _ _ _).mp read
        simp only [← Field.takes_iff] at each
        exact .accepted row length each
    · exact .foreign row named

theorem decode_of_decodes {layout : Layout} {settings : Settings} {bytes : Bytes}
    {outcome : Except WireError LabelledMessage}
    (decoded : layout.Decodes settings.integers bytes outcome) :
    layout.decode settings bytes = outcome := by
  rw [decode_eq, Wire.spans_eq_pieces]
  cases decoded with
  | noInput => rfl
  | foreign row other => simp only [row, if_neg other]
  | refused row found here before =>
    simp only [Field.takes_iff] at here before
    simp only [row, if_true, (valuesOf_eq_error_iff _ _).mpr ⟨_, _, found, here, before⟩]
    rfl
  | accepted row length each =>
    simp only [Field.takes_iff] at each
    simp only [row, if_true, (valuesOf_eq_ok_iff _ _ _).mpr ⟨length, each⟩]
    rfl

/-- Decoding has the outcome that the pieces tell, field by field.  Bytes that agree in the pieces
of the name and of the fields decode alike, whatever comes after those, and a decoded message has
the name of the layout and its fields in order. -/
theorem decoding_is_told_by_the_pieces (layout : Layout) (settings : Settings) (bytes : Bytes) :
    (∀ outcome, layout.decode settings bytes = outcome ↔
      layout.Decodes settings.integers bytes outcome) ∧
    (∀ other : Bytes, (Wire.pieces other).take (layout.fields.length + 1) =
        (Wire.pieces bytes).take (layout.fields.length + 1) →
      layout.decode settings other = layout.decode settings bytes) ∧
    ∀ message, layout.decode settings bytes = .ok message →
      message.name = layout.name ∧ message.values.map Field.ofEntry = layout.fields := by
  refine ⟨?_, ?_, ?_⟩
  · intro outcome
    constructor
    · rintro rfl
      exact decodes_decode layout settings bytes
    · exact decode_of_decodes
  · intro other same
    rw [decode_eq_of_take, decode_eq_of_take, same]
  · intro message decoded
    obtain ⟨rfl, -⟩ := written_of_decode decoded
    exact ⟨rfl, rfl⟩

/-- An empty piece is an empty text, and a malformed one behind the last field is not looked at. -/
theorem surplus_pieces_are_not_read :
    decode ⟨"P", [⟨"a", .text⟩, ⟨"n", .integer⟩]⟩ ⟨0, .exact⟩
        (Utf8.encode "P||-007|" ++ [0xFF, 0x7C, 0x7C]) =
      .ok ⟨"P", [("a", .text (some "")), ("n", .integer (-7))]⟩ := by
  have decoded : decode ⟨"P", [⟨"a", .text⟩, ⟨"n", .integer⟩]⟩ ⟨0, .exact⟩
      (Utf8.encode "P||-007|") = .ok ⟨"P", [("a", .text (some "")), ("n", .integer (-7))]⟩ := by
    decide +kernel
  obtain ⟨-, surplus, -⟩ := decoding_is_told_by_the_pieces
    ⟨"P", [⟨"a", .text⟩, ⟨"n", .integer⟩]⟩ ⟨0, .exact⟩ (Utf8.encode "P||-007|")
  rw [surplus _ (by decide +kernel), decoded]

end Layout

end PipeCodec
