import PipeCodec.Proofs.Record

/-!
# Round trip of messages

A message that encodes under some settings decodes under any settings, to the same message with
empty texts in place of missing ones.  The leading tag picks the record type again, so it makes no
difference whether the reader knows the type beforehand.
-/

set_option autoImplicit false

namespace PipeCodec.Message

def decodeAs (settings : Settings) (bytes : Bytes) : Message → Except WireError Message
  | login _ => login <$> Record.decode Login settings bytes
  | status _ => status <$> Record.decode Status settings bytes
  | packet _ => packet <$> Record.decode Packet settings bytes

theorem encode_eq_sealed (settings : Settings) (message : Message) :
    message.encode settings = message.toLabelled.sealed settings.capacity := by
  cases message with
  | login record => exact Record.encode_eq_sealed settings record
  | status record => exact Record.encode_eq_sealed settings record
  | packet record => exact Record.encode_eq_sealed settings record

theorem plain_tag (message : Message) : Wire.delimiter ∉ Utf8.encode message.tag := by
  cases message with
  | login record => exact (LawfulRecord.plain_tag : Wire.delimiter ∉ Utf8.encode (Record.tag Login))
  | status record =>
    exact (LawfulRecord.plain_tag : Wire.delimiter ∉ Utf8.encode (Record.tag Status))
  | packet record =>
    exact (LawfulRecord.plain_tag : Wire.delimiter ∉ Utf8.encode (Record.tag Packet))

theorem toLabelled_normalize (message : Message) :
    message.normalize.toLabelled = message.toLabelled.normalize := by
  cases message with
  | login record => rfl
  | status record => rfl
  | packet record => rfl

theorem eq_wire_of_encode {settings : Settings} {message : Message} {bytes : Bytes}
    (encoded : message.encode settings = .ok bytes) : bytes = message.toLabelled.wire := by
  rw [encode_eq_sealed] at encoded
  exact (LabelledMessage.sealed_eq_ok encoded).1

/-- A wire form never ends in a byte that a reader could take for part of a line end. -/
theorem getLast?_of_encode {settings : Settings} {message : Message} {bytes : Bytes}
    (encoded : message.encode settings = .ok bytes) :
    bytes.getLast? = some Wire.delimiter := by
  rw [eq_wire_of_encode encoded]
  exact Wire.getLast?_flatMap_closeSpan (List.cons_ne_nil _ _)

theorem leadingTag_of_encode {settings : Settings} {message : Message} {bytes : Bytes}
    (rest : Bytes) (encoded : message.encode settings = .ok bytes) :
    leadingTag (bytes ++ rest) = .ok message.tag := by
  rw [encode_eq_sealed] at encoded
  obtain ⟨rfl, free⟩ := LabelledMessage.sealed_eq_ok encoded
  exact message.toLabelled.leadingTag_wire rest message.plain_tag free

theorem decode_eq_decodeAs {settings : Settings} {bytes : Bytes} (message : Message)
    (tagged : leadingTag bytes = .ok message.tag) :
    Message.decode settings bytes = message.decodeAs settings bytes := by
  rw [Message.decode, tagged]
  cases message with
  | login record => rfl
  | status record => rfl
  | packet record => rfl

theorem decodeAs_of_encode {writing : Settings} {message : Message} {bytes : Bytes}
    (reading : Settings) (rest : Bytes) (encoded : message.encode writing = .ok bytes) :
    message.decodeAs reading (bytes ++ rest) = .ok message.normalize := by
  have normalized := message.toLabelled_normalize
  cases message with
  | login record => rw [decodeAs, Record.decode_of_encode rest normalized encoded]; rfl
  | status record => rw [decodeAs, Record.decode_of_encode rest normalized encoded]; rfl
  | packet record => rw [decodeAs, Record.decode_of_encode rest normalized encoded]; rfl

theorem decode_of_encode {writing : Settings} {message : Message} {bytes : Bytes}
    (reading : Settings) (rest : Bytes) (encoded : message.encode writing = .ok bytes) :
    Message.decode reading (bytes ++ rest) = .ok message.normalize := by
  rw [decode_eq_decodeAs message (leadingTag_of_encode rest encoded)]
  exact decodeAs_of_encode reading rest encoded

/-- What one side encodes the other decodes, whatever capacity and integer rule each of them has,
and the record type needs not be known. -/
theorem encoded_message_reads_back {message : Message} {writing reading : Settings} {bytes : Bytes}
    (encoded : message.encode writing = .ok bytes) :
    Message.decode reading bytes = .ok message.normalize ∧
      message.decodeAs reading bytes = .ok message.normalize := by
  have decoded := decode_of_encode reading [] encoded
  have typed := decodeAs_of_encode reading [] encoded
  rw [List.append_nil] at decoded typed
  exact ⟨decoded, typed⟩

theorem packet_with_least_word_reads_back :
    (packet ⟨Int32.minValue, none, 7⟩).encode ⟨26, .lenient⟩ =
        .ok (Utf8.encode "DataPacket|-2147483648||7|") ∧
      Message.decode ⟨0, .exact⟩ (Utf8.encode "DataPacket|-2147483648||7|") =
        .ok (packet ⟨Int32.minValue, some "", 7⟩) ∧
      packet <$> Record.decode Packet ⟨0, .exact⟩ (Utf8.encode "DataPacket|-2147483648||7|") =
        .ok (packet ⟨Int32.minValue, some "", 7⟩) := by
  have encoded : (packet ⟨Int32.minValue, none, 7⟩).encode ⟨26, .lenient⟩ =
      .ok (Utf8.encode "DataPacket|-2147483648||7|") := by decide +kernel
  exact ⟨encoded, encoded_message_reads_back encoded⟩

end PipeCodec.Message
