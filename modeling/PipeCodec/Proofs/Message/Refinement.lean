import PipeCodec.Proofs.Layout.Refinement
import PipeCodec.Proofs.Message.Dispatch

/-!
# Exact messages among the lenient ones

What holds of the two rules for integers against a layout holds of the record types, since a record
is read as its layout is.  The tag is read without a look at the rule, so both rules dispatch alike,
and behind the tag the fields of the record type that it names decide.
-/

set_option autoImplicit false

namespace PipeCodec

theorem Record.exactRefines_decode (α : Type) [Record α] [LawfulRecord α] (bytes : Bytes)
    (room exactRoom : Nat) :
    ExactRefines (Record.fields α) (Wire.pieces bytes).tail
      (Record.decode α ⟨room, .lenient⟩ bytes) (Record.decode α ⟨exactRoom, .exact⟩ bytes) := by
  have injective : Function.Injective (Record.toLabelled : α → LabelledMessage) :=
    fun _ _ same => Record.toLabelled_injective same
  apply ExactRefines.of_map injective
  rw [Record.toLabelled_decode, Record.toLabelled_decode]
  exact (Record.layout α).exactRefines_decode bytes room exactRoom

theorem Message.Kind.exactRefines_decode (kind : Kind) (bytes : Bytes) (room exactRoom : Nat) :
    ExactRefines kind.layout.fields (Wire.pieces bytes).tail
      (kind.decode ⟨room, .lenient⟩ bytes) (kind.decode ⟨exactRoom, .exact⟩ bytes) := by
  cases kind with
  | login => exact (Record.exactRefines_decode Login bytes room exactRoom).map Message.login
  | status => exact (Record.exactRefines_decode Status bytes room exactRoom).map Message.status
  | packet => exact (Record.exactRefines_decode Packet bytes room exactRoom).map Message.packet

/-- Exact decoding refines lenient decoding, against any layout and of any message, where the fields
of a message are those of the record type whose tag leads the bytes. -/
theorem exact_decoding_refines_lenient (bytes : Bytes) (room exactRoom : Nat) :
    (∀ layout : Layout,
      ExactRefines layout.fields (Wire.pieces bytes).tail
        (layout.decode ⟨room, .lenient⟩ bytes) (layout.decode ⟨exactRoom, .exact⟩ bytes)) ∧
    ∃ fields : List Field,
      (∀ kind : Message.Kind, (Wire.pieces bytes).head? = some (Utf8.encode kind.tag) →
        fields = kind.layout.fields) ∧
      ExactRefines fields (Wire.pieces bytes).tail
        (Message.decode ⟨room, .lenient⟩ bytes) (Message.decode ⟨exactRoom, .exact⟩ bytes) := by
  refine ⟨fun layout => layout.exactRefines_decode bytes room exactRoom, ?_⟩
  rcases Message.decode_cases bytes with ⟨rfl, refused⟩ | ⟨kind, pieces, row, decided⟩ |
    ⟨tag, pieces, row, foreign, refused⟩
  · refine ⟨[], ?_, ?_⟩
    · intro kind leads
      cases leads
    · rw [refused, refused]
      exact .of_beforeFields _ _ .noInput
  · refine ⟨kind.layout.fields, ?_, ?_⟩
    · intro other leads
      rw [← Wire.spans_eq_pieces, row] at leads
      rw [Message.Kind.eq_of_encode_tag (Option.some.inj leads)]
    · rw [decided, decided]
      exact kind.exactRefines_decode bytes room exactRoom
  · refine ⟨[], ?_, ?_⟩
    · intro kind leads
      rw [← Wire.spans_eq_pieces, row] at leads
      exact absurd (Option.some.inj leads) (foreign kind)
    · rw [refused, refused]
      exact .of_beforeFields _ _ (.unknownType _)

/-- Leading zeros and a plus sign are read exactly, and a number that is no word is told before the
malformed text behind it. -/
theorem overlong_number_is_told_before_malformed_text :
    (Message.decode ⟨0, .exact⟩ (Utf8.encode "DataPacket|+0007||-0") =
        .ok (.packet ⟨7, some "", 0⟩) ∧
      Message.decode ⟨0, .lenient⟩ (Utf8.encode "DataPacket|+0007||-0") =
        .ok (.packet ⟨7, some "", 0⟩)) ∧
    Layout.decode ⟨"P", [⟨"n", .integer⟩, ⟨"a", .text⟩]⟩ ⟨0, .lenient⟩
        (Utf8.encode "P|2147483648|" ++ [0xFF]) = .error (.malformedText "a") ∧
      ∃ index field piece,
        Layout.FirstUnsound [⟨"n", .integer⟩, ⟨"a", .text⟩]
          (Wire.pieces (Utf8.encode "P|2147483648|" ++ [0xFF])).tail index field piece ∧
        Layout.decode ⟨"P", [⟨"n", .integer⟩, ⟨"a", .text⟩]⟩ ⟨0, .exact⟩
            (Utf8.encode "P|2147483648|" ++ [0xFF]) =
          .error (.malformedInteger field.name (Utf8.lossy piece)) := by
  have exactly : Message.decode ⟨0, .exact⟩ (Utf8.encode "DataPacket|+0007||-0") =
      .ok (.packet ⟨7, some "", 0⟩) := by
    decide +kernel
  have refused : Layout.decode ⟨"P", [⟨"n", .integer⟩, ⟨"a", .text⟩]⟩ ⟨0, .lenient⟩
      (Utf8.encode "P|2147483648|" ++ [0xFF]) = .error (.malformedText "a") := by
    decide +kernel
  refine ⟨⟨exactly, ?_⟩, refused, ?_⟩
  · obtain ⟨-, fields, -, refines⟩ :=
      exact_decoding_refines_lenient (Utf8.encode "DataPacket|+0007||-0") 0 0
    exact refines.accepted _ exactly
  · obtain ⟨index, first, same | ⟨earlier, less, found⟩⟩ :=
      ((exact_decoding_refines_lenient (Utf8.encode "P|2147483648|" ++ [0xFF]) 0 0).1
        ⟨"P", [⟨"n", .integer⟩, ⟨"a", .text⟩]⟩).text "a" refused
    · exact absurd same (by decide +kernel)
    · exact ⟨earlier, found⟩

end PipeCodec
