import PipeCodec.Proofs.Layout.Canonical
import PipeCodec.Proofs.Message
import PipeCodec.Proofs.Schema.Builtin
import PipeCodec.Proofs.Schema.Lookup

/-!
# The canonical wire form of a message

A message that was decoded from any bytes was decoded against one of the built-in layouts, so all
that is known of its labelled form holds of the message.
-/

set_option autoImplicit false

namespace PipeCodec.Message

theorem exists_layout_of_decode {settings : Settings} {bytes : Bytes} {message : Message}
    (decoded : Message.decode settings bytes = .ok message) :
    ∃ layout : Layout, layout.decode settings bytes = .ok message.toLabelled := by
  have labelled := Schema.decode_ofRecords settings bytes
  rw [decoded] at labelled
  obtain ⟨layout, -, read⟩ := Schema.exists_layout_of_decode labelled
  exact ⟨layout, read⟩

def growth : Message → Nat
  | login _ => 3
  | status _ => 4
  | packet _ => 6

theorem growth_eq (message : Message) :
    message.growth = 1 + (message.toLabelled.layout.fields.map (·.kind.growth)).sum := by
  cases message with
  | login record => rfl
  | status record => rfl
  | packet record => rfl

/-- A decoded message encodes but for the capacity, and its wire form is canonical. -/
theorem decoded_message_reencodes {reading : Settings} {bytes : Bytes} {message : Message}
    (decoded : Message.decode reading bytes = .ok message) :
    ∃ canonical : Bytes,
      CanonicalForm Message.encode Message.decode message message.normalize canonical ∧
      canonical.length ≤ bytes.length + message.growth := by
  obtain ⟨layout, read⟩ := exists_layout_of_decode decoded
  obtain ⟨rfl, -, free, length⟩ := Layout.written_of_decode read
  have encodes : ∀ writing : Settings, message.encode writing =
      if message.toLabelled.wire.length ≤ writing.capacity then .ok message.toLabelled.wire
      else .error (.overCapacity message.toLabelled.wire.length writing.capacity) := by
    intro writing
    rw [encode_eq_sealed, LabelledMessage.sealed_of_free free]
  refine ⟨message.toLabelled.wire, ⟨encodes, ?_, ?_⟩, ?_⟩
  · intro settings
    have encoded := encodes ⟨message.toLabelled.wire.length, .lenient⟩
    rw [if_pos (Nat.le_refl _)] at encoded
    have readBack := decode_of_encode settings [] encoded
    rwa [List.append_nil] at readBack
  · intro writing room
    rw [encode_eq_sealed, toLabelled_normalize, LabelledMessage.sealed_normalize free,
      LabelledMessage.sealed_of_free free, if_pos room]
  · rw [growth_eq]
    omega

theorem bare_packet_tag_reencodes :
    Message.decode ⟨0, .exact⟩ (Utf8.encode "DataPacket") = .ok (packet ⟨0, none, 0⟩) ∧
      ∃ canonical : Bytes,
        CanonicalForm Message.encode Message.decode (packet ⟨0, none, 0⟩) (packet ⟨0, some "", 0⟩)
          canonical ∧
        canonical.length ≤ 10 + 6 := by
  have decoded : Message.decode ⟨0, .exact⟩ (Utf8.encode "DataPacket") =
      .ok (packet ⟨0, none, 0⟩) := by decide +kernel
  exact ⟨decoded, decoded_message_reencodes decoded⟩

end PipeCodec.Message
