import PipeCodec.Proofs.Layout.Positional
import PipeCodec.Proofs.Message.Dispatch
import PipeCodec.Proofs.Message.Encoding
import PipeCodec.Proofs.Wire.Cut

/-!
# Wire forms that go on or end early

Behind the wire form of a message anything may follow: it is not looked at.  If the wire form ends
early, the place of the end decides.  Within the tag it leaves another tag, which no record type
has.  Behind the tag every field whose delimiter is still there keeps its value, every field of
which no byte is left is missing, and the one field that the end falls into is read from what is
left of it.  Only a text can be refused then, if the end falls into one of its characters.
-/

set_option autoImplicit false

namespace PipeCodec

/-- What is left of a value whose span goes from `start` to `stop`, when the bytes end at
`length`. -/
inductive Value.Left (bytes : Bytes) (start stop length : Nat) : Value → Value → Prop
  | whole (value : Value) : stop < length → Left bytes start stop length value value.normalize
  | missingText (content : Option String) : length ≤ start →
      Left bytes start stop length (.text content) (.text none)
  | missingInteger (word : Int32) : length ≤ start →
      Left bytes start stop length (.integer word) (.integer 0)
  | text (content : Option String) (rest : String) : start < length → length ≤ stop →
      (bytes.take length).drop start = Utf8.encode rest →
      Left bytes start stop length (.text content) (.text (some rest))
  | integer (word : Int32) : start < length → length ≤ stop →
      Left bytes start stop length (.integer word)
        (.integer (Int32.ofIntClamp (Decimal.leadingNumber ((bytes.take length).drop start))))

namespace Message

def start (message : Message) (index : Nat) : Nat :=
  Wire.offset message.toLabelled.spans (index + 1)

def stop (message : Message) (index : Nat) : Nat :=
  message.start index + (message.toLabelled.spans[index + 1]?.getD []).length

/-- What the first bytes of the wire form of a message decode to. -/
inductive CutDecodes (message : Message) (bytes : Bytes) (length : Nat) :
    Except WireError Message → Prop
  | noInput : length = 0 → CutDecodes message bytes length (.error .noInput)
  | unknownType (tag : String) : 0 < length → length < (Utf8.encode message.tag).length →
      bytes.take length = Utf8.encode tag →
      CutDecodes message bytes length (.error (.unknownType tag))
  | malformedText {index : Nat} {name : String} {content : Option String} :
      (Utf8.encode message.tag).length ≤ length →
      message.entries[index]? = some (name, .text content) →
      message.start index < length → length ≤ message.stop index →
      (∀ text, (bytes.take length).drop (message.start index) ≠ Utf8.encode text) →
      CutDecodes message bytes length (.error (.malformedText name))
  | fields {result : Message} : (Utf8.encode message.tag).length ≤ length →
      result.kind = message.kind →
      (∀ (index : Nat) (name : String) (value : Value),
        message.entries[index]? = some (name, value) →
        ∃ left, result.entries[index]? = some (name, left) ∧
          value.Left bytes (message.start index) (message.stop index) length left) →
      CutDecodes message bytes length (.ok result)

end Message

/-! ## One field -/

namespace Value

variable {bytes : Bytes} {start length : Nat} {name : String} {value : Value}

def cutPiece (bytes : Bytes) (start length : Nat) (value : Value) : Option Bytes :=
  if start + value.span.length < length then some value.span
  else if start < length then some ((bytes.take length).drop start)
  else none

theorem left_of_takes {left : Value}
    (taken : (Field.ofEntry (name, value)).Takes .lenient (value.cutPiece bytes start length)
      (.ok left)) :
    value.Left bytes start (start + value.span.length) length left := by
  unfold cutPiece at taken
  split_ifs at taken with whole begins
  · rw [Field.takes_iff, ofSpan_span] at taken
    cases taken
    exact .whole value whole
  · have ends := Nat.le_of_not_lt whole
    generalize cut : (bytes.take length).drop start = rest at taken
    cases value with
    | text content =>
      cases taken with
      | text own _ => exact .text content own begins ends cut
      | nearest _ kind _ => cases kind
      | exact kind _ _ => cases kind
    | integer word =>
      cases taken with
      | text _ kind => cases kind
      | nearest _ _ _ =>
        rw [← cut]
        exact .integer word begins ends
      | exact _ rule _ => cases rule
  · have missing := Nat.le_of_not_lt begins
    cases value with
    | text content =>
      cases taken with
      | missingText _ => exact .missingText content missing
      | missingInteger kind => cases kind
    | integer word =>
      cases taken with
      | missingText kind => cases kind
      | missingInteger _ => exact .missingInteger word missing

/-- Only a text that the end falls into can be refused. -/
theorem text_of_takes {cause : WireError}
    (taken : (Field.ofEntry (name, value)).Takes .lenient (value.cutPiece bytes start length)
      (.error cause)) :
    (∃ content, value = .text content) ∧ cause = .malformedText name ∧ start < length ∧
      length ≤ start + value.span.length ∧
      ∀ text, (bytes.take length).drop start ≠ Utf8.encode text := by
  unfold cutPiece at taken
  split_ifs at taken with whole begins
  · rw [Field.takes_iff, ofSpan_span] at taken
    cases taken
  · generalize cut : (bytes.take length).drop start = rest at taken
    cases taken with
    | malformedText kind other =>
      cases value with
      | text content => exact ⟨⟨content, rfl⟩, rfl, begins, Nat.le_of_not_lt whole, cut ▸ other⟩
      | integer word => cases kind
    | malformedInteger _ rule _ => cases rule
  · cases taken

end Value

/-! ## The row of pieces -/

namespace LabelledMessage

variable {message : LabelledMessage}

theorem spans_getElem? {index : Nat} {name : String} {value : Value}
    (found : message.values[index]? = some (name, value)) :
    message.spans[index + 1]? = some value.span := by
  rw [spans, List.getElem?_cons_succ, List.getElem?_map, found]
  rfl

/-- A cut behind the tag leaves the tag, and of each value its piece. -/
theorem exists_pieces_take (message : LabelledMessage) (tagged : Utf8.encode message.name ≠ [])
    (plain : Wire.delimiter ∉ Utf8.encode message.name)
    (free : ∀ entry ∈ message.values, Wire.delimiter ∉ entry.2.span) {length : Nat}
    (reaches : (Utf8.encode message.name).length ≤ length) :
    ∃ pieces, Wire.spans (message.wire.take length) = Utf8.encode message.name :: pieces ∧
      ∀ {index : Nat} {name : String} {value : Value},
        message.values[index]? = some (name, value) →
        pieces[index]? =
          value.cutPiece message.wire (Wire.offset message.spans (index + 1)) length := by
  have rowFree := delimiter_notMem_spans plain free
  have positive := List.length_pos_iff.mpr tagged
  have leading : (Wire.spans (message.wire.take length))[0]? = some (Utf8.encode message.name) := by
    have first : message.spans[0]? = some (Utf8.encode message.name) := rfl
    rw [wire, Wire.getElem?_spans_take message.spans rowFree length first, Wire.offset_zero,
      Nat.zero_add]
    by_cases behind : (Utf8.encode message.name).length < length
    · rw [if_pos behind]
    · have exactly : length = (Utf8.encode message.name).length := by omega
      rw [if_neg behind, if_pos (by omega), exactly, List.drop_zero, spans, List.flatMap_cons,
        Wire.closeSpan, List.append_assoc, List.take_left]
  cases row : Wire.spans (message.wire.take length) with
  | nil =>
    rw [row] at leading
    cases leading
  | cons tag pieces =>
    rw [row] at leading
    obtain rfl : tag = Utf8.encode message.name := Option.some.inj leading
    refine ⟨pieces, rfl, ?_⟩
    intro index name value found
    have own := Wire.getElem?_spans_take message.spans rowFree length (spans_getElem? found)
    rw [← wire, row, List.getElem?_cons_succ] at own
    exact own

end LabelledMessage

namespace Message

theorem stop_eq {message : Message} {index : Nat} {name : String} {value : Value}
    (found : message.entries[index]? = some (name, value)) :
    message.stop index = message.start index + value.span.length := by
  have own : message.toLabelled.spans[index + 1]? = some value.span :=
    LabelledMessage.spans_getElem? found
  rw [stop, own, Option.getD_some]

/-- A cut falls into one field at most. -/
theorem index_eq_of_cut {message : Message} {index other length : Nat}
    (inside : index < message.entries.length) (otherInside : other < message.entries.length)
    (begins : message.start index < length) (ends : length ≤ message.stop index)
    (otherBegins : message.start other < length) (otherEnds : length ≤ message.stop other) :
    index = other := by
  have found := List.getElem?_eq_getElem inside
  have otherFound := List.getElem?_eq_getElem otherInside
  rw [stop_eq found] at ends
  rw [stop_eq otherFound] at otherEnds
  have same := Wire.index_unique message.toLabelled.spans
    (LabelledMessage.spans_getElem? found) (LabelledMessage.spans_getElem? otherFound)
    begins ends otherBegins otherEnds
  exact Nat.succ.inj same

/-! ## A cut within the tag -/

namespace Kind

theorem encode_tag_ne_nil (kind : Kind) : Utf8.encode kind.tag ≠ [] := by
  cases kind <;> decide +kernel

theorem ascii_tag (kind : Kind) : ∀ c ∈ kind.tag.toList, c.toNat < 0x80 := by
  have all : kind.tag.toList.all (fun c => c.toNat < 0x80) = true := by
    cases kind <;> decide +kernel
  intro c among
  exact of_decide_eq_true (List.all_eq_true.mp all c among)

/-- No tag begins with another one. -/
theorem eq_of_encode_tag_prefix {left right : Kind} :
    Utf8.encode left.tag <+: Utf8.encode right.tag → left = right := by
  cases left <;> cases right <;> decide +kernel

end Kind

end Message

theorem Utf8.exists_text_take {text : String} (ascii : ∀ c ∈ text.toList, c.toNat < 0x80)
    (length : Nat) : ∃ own, (Utf8.encode text).take length = Utf8.encode own := by
  refine ⟨String.ofList (text.toList.take length), ?_⟩
  have rest : ∀ c ∈ text.toList.take length, c.toNat < 0x80 := fun c among =>
    ascii c (List.mem_of_mem_take among)
  rw [encode, encode, String.toList_ofList, encodeChars_ascii _ ascii, encodeChars_ascii _ rest,
    List.map_take]

namespace Message

variable {message : Message} {length : Nat}

theorem take_within_tag (within : length ≤ (Utf8.encode message.tag).length) :
    message.toLabelled.wire.take length = (Utf8.encode message.tag).take length := by
  rw [LabelledMessage.wire, LabelledMessage.spans, List.flatMap_cons, Wire.closeSpan,
    List.append_assoc]
  exact List.take_append_of_le_length within

theorem cutDecodes_within_tag (settings : Settings) (someByte : 0 < length)
    (within : length < (Utf8.encode message.tag).length) :
    message.CutDecodes message.toLabelled.wire length
      (Message.decode settings (message.toLabelled.wire.take length)) := by
  obtain ⟨own, written⟩ := Utf8.exists_text_take message.kind.ascii_tag length
  rw [tag_kind] at written
  have cut : message.toLabelled.wire.take length = Utf8.encode own := by
    rw [take_within_tag (Nat.le_of_lt within), written]
  have leads : Utf8.encode own <+: Utf8.encode message.tag := by
    rw [← written]
    exact List.take_prefix length _
  have ownLength : (Utf8.encode own).length = length := by
    rw [← written, List.length_take]
    omega
  have ownByte : Utf8.encode own ≠ [] := List.length_pos_iff.mp (by omega)
  have ownFree : Wire.delimiter ∉ Utf8.encode own := fun member =>
    message.plain_tag (leads.subset member)
  have alone := Wire.spans_of_notMem ownFree ownByte
  rw [cut]
  rcases decode_cases (Utf8.encode own) with ⟨empty, -⟩ | ⟨kind, rest, row, -⟩ |
    ⟨tag, rest, row, -, refused⟩
  · exact absurd empty ownByte
  · -- A tag of a record type would be the whole tag of the message.
    rw [alone] at row
    have same := (List.cons.inj row).1
    rw [same, ← tag_kind] at leads
    rw [Kind.eq_of_encode_tag_prefix leads, tag_kind] at same
    rw [same] at ownLength
    omega
  · rw [alone] at row
    rw [refused, ← (List.cons.inj row).1, Utf8.lossy_encode]
    exact .unknownType own someByte within cut

/-! ## A cut behind the tag -/

theorem exists_pieces_take (free : ∀ entry ∈ message.entries, Wire.delimiter ∉ entry.2.span)
    (reaches : (Utf8.encode message.tag).length ≤ length) :
    ∃ pieces, Wire.spans (message.toLabelled.wire.take length) =
        Utf8.encode message.kind.tag :: pieces ∧
      ∀ {index : Nat} {name : String} {value : Value},
        message.entries[index]? = some (name, value) →
        (message.kind.layout.fields[index]? = some (Field.ofEntry (name, value)) ∧
          pieces[index]? =
            value.cutPiece message.toLabelled.wire (message.start index) length) := by
  have tagged := message.kind.encode_tag_ne_nil
  rw [tag_kind] at tagged ⊢
  obtain ⟨pieces, row, piece_at⟩ :=
    message.toLabelled.exists_pieces_take tagged message.plain_tag free reaches
  refine ⟨pieces, row, ?_⟩
  intro index name value found
  refine ⟨?_, piece_at found⟩
  rw [fields_kind, List.getElem?_map, found]
  rfl

theorem cutDecodes_behind_tag (room : Nat)
    (free : ∀ entry ∈ message.entries, Wire.delimiter ∉ entry.2.span)
    (reaches : (Utf8.encode message.tag).length ≤ length) :
    message.CutDecodes message.toLabelled.wire length
      (Message.decode ⟨room, .lenient⟩ (message.toLabelled.wire.take length)) := by
  obtain ⟨pieces, row, each⟩ := exists_pieces_take free reaches
  have labelled := toLabelled_of_ownTag ⟨room, .lenient⟩ row
  cases decoded : Message.decode ⟨room, .lenient⟩ (message.toLabelled.wire.take length) with
  | error cause =>
    rw [decoded] at labelled
    have refused := map_eq_error_iff.mp labelled.symm
    obtain ⟨index, field, field_at, here, -⟩ := (Layout.valuesOf_eq_error_iff _ _).mp refused
    rw [fields_kind, List.getElem?_map, Option.map_eq_some_iff] at field_at
    obtain ⟨⟨name, value⟩, found, rfl⟩ := field_at
    rw [(each found).2, ← Field.takes_iff] at here
    obtain ⟨⟨content, rfl⟩, rfl, begins, ends, other⟩ := Value.text_of_takes here
    rw [← stop_eq found] at ends
    exact .malformedText reaches found begins ends other
  | ok result =>
    rw [decoded] at labelled
    obtain ⟨values, read, same⟩ := exists_of_map_eq_ok labelled.symm
    obtain rfl : values = result.entries := congrArg LabelledMessage.values same
    have kind : result.kind = message.kind := by
      apply Kind.eq_of_encode_tag
      rw [tag_kind result]
      exact congrArg (Utf8.encode ·.name) same.symm
    apply CutDecodes.fields reaches kind
    intro index name value found
    obtain ⟨-, all⟩ := (Layout.valuesOf_eq_ok_iff _ _ _).mp read
    obtain ⟨left, stored, taken⟩ := all index _ (each found).1
    rw [(each found).2, ← Field.takes_iff] at taken
    have kept := Value.left_of_takes taken
    rw [← stop_eq found] at kept
    exact ⟨left, stored, kept⟩

/-- The fields of a wire form have their places.  Whatever is put behind the wire form, it decodes
as before; and whatever is cut off at its end, the place of the cut tells what it decodes to. -/
theorem extended_and_cut_wires_decode {writing : Settings} {bytes : Bytes}
    (encoded : message.encode writing = .ok bytes) :
    (∀ (index : Nat) (name : String) (value : Value),
      message.entries[index]? = some (name, value) →
      value.Spelling ((bytes.take (message.stop index)).drop (message.start index)) ∧
        bytes[message.stop index]? = some Wire.delimiter) ∧
    (∀ (reading : Settings) (rest : Bytes),
      Message.decode reading (bytes ++ rest) = Message.decode reading bytes) ∧
    ∀ length : Nat,
      (∀ index < message.entries.length, ∀ other < message.entries.length,
        message.start index < length → length ≤ message.stop index →
        message.start other < length → length ≤ message.stop other → index = other) ∧
      ∀ room : Nat, message.CutDecodes bytes length
        (Message.decode ⟨room, .lenient⟩ (bytes.take length)) := by
  have readBack : ∀ (reading : Settings) (rest : Bytes),
      Message.decode reading (bytes ++ rest) = .ok message.normalize := fun reading rest =>
    decode_of_encode reading rest encoded
  rw [encode_eq_sealed] at encoded
  obtain ⟨rfl, free⟩ := LabelledMessage.sealed_eq_ok encoded
  refine ⟨?_, ?_, ?_⟩
  · intro index name value found
    have own : message.toLabelled.spans[index + 1]? = some value.span :=
      LabelledMessage.spans_getElem? found
    rw [Value.spelling_iff, stop_eq found]
    exact Wire.slice_closed message.toLabelled.spans own
  · intro reading rest
    have alone := readBack reading []
    rw [List.append_nil] at alone
    rw [readBack reading rest, alone]
  · intro length
    refine ⟨?_, ?_⟩
    · intro index inside other otherInside begins ends otherBegins otherEnds
      exact index_eq_of_cut inside otherInside begins ends otherBegins otherEnds
    · intro room
      rcases Nat.eq_zero_or_pos length with rfl | someByte
      · exact .noInput rfl
      · by_cases within : length < (Utf8.encode message.tag).length
        · exact cutDecodes_within_tag _ someByte within
        · exact cutDecodes_behind_tag room free (Nat.le_of_not_lt within)

/-- The cuts fall into the letter of two bytes and behind the minus sign. -/
theorem packet_cut_within_letter_and_number :
    (packet ⟨-12, some "é", 7⟩).encode ⟨20, .lenient⟩ =
        .ok (Utf8.encode "DataPacket|-12|é|7|") ∧
      Message.decode ⟨0, .exact⟩ (Utf8.encode "DataPacket|-12|é|7|" ++ [0xFF, 0x7C]) =
        .ok (packet ⟨-12, some "é", 7⟩) ∧
      (packet ⟨-12, some "é", 7⟩).CutDecodes (Utf8.encode "DataPacket|-12|é|7|") 16
        (.error (.malformedText "payload")) ∧
      (packet ⟨-12, some "é", 7⟩).CutDecodes (Utf8.encode "DataPacket|-12|é|7|") 12
        (.ok (packet ⟨0, none, 0⟩)) := by
  have encoded : (packet ⟨-12, some "é", 7⟩).encode ⟨20, .lenient⟩ =
      .ok (Utf8.encode "DataPacket|-12|é|7|") := by
    decide +kernel
  have whole : Message.decode ⟨0, .exact⟩ (Utf8.encode "DataPacket|-12|é|7|") =
      .ok (packet ⟨-12, some "é", 7⟩) := by
    decide +kernel
  have letter : Message.decode ⟨0, .lenient⟩ ((Utf8.encode "DataPacket|-12|é|7|").take 16) =
      .error (.malformedText "payload") := by
    decide +kernel
  have number : Message.decode ⟨0, .lenient⟩ ((Utf8.encode "DataPacket|-12|é|7|").take 12) =
      .ok (packet ⟨0, none, 0⟩) := by
    decide +kernel
  obtain ⟨-, extended, cut⟩ := extended_and_cut_wires_decode encoded
  refine ⟨encoded, ?_, ?_, ?_⟩
  · rw [extended, whole]
  · rw [← letter]
    exact (cut 16).2 0
  · rw [← number]
    exact (cut 12).2 0

end Message

end PipeCodec
