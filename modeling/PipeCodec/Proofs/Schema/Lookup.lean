import PipeCodec.Proofs.Layout.Encoding
import PipeCodec.Proofs.Schema.Declaring

/-!
# Finding the layout by its name

In a schema read from a description no two layouts have one name, so the leading tag of a message
finds the layout that the message was encoded against.  Decoding against the schema is then decoding
against that layout, and the round trip needs no more than the checks that encoding itself makes.
-/

set_option autoImplicit false

namespace PipeCodec.Schema

theorem get?_eq_some_of_mem {schema : Schema} {layout : Layout}
    (distinct : (schema.layouts.map (·.name)).Nodup) (member : layout ∈ schema.layouts) :
    schema.get? layout.name = some layout := by
  rw [get?]
  cases found : schema.layouts.find? (·.name = layout.name) with
  | none =>
    have absent := List.find?_eq_none.mp found layout member
    simp at absent
  | some other =>
    have sameName : other.name = layout.name := by simpa using List.find?_some found
    have same := List.inj_on_of_nodup_map distinct (List.mem_of_find?_eq_some found) member sameName
    rw [same]

theorem decode_eq_of_leadingTag {schema : Schema} {layout : Layout} {bytes : Bytes}
    (distinct : (schema.layouts.map (·.name)).Nodup) (member : layout ∈ schema.layouts)
    (tagged : leadingTag bytes = .ok layout.name) (settings : Settings) :
    schema.decode settings bytes = layout.decode settings bytes := by
  rw [decode, tagged]
  simp only [bind, Except.bind, get?_eq_some_of_mem distinct member]

theorem exists_layout_of_decode {schema : Schema} {settings : Settings} {bytes : Bytes}
    {message : LabelledMessage} (decoded : schema.decode settings bytes = .ok message) :
    ∃ layout ∈ schema.layouts, layout.decode settings bytes = .ok message := by
  obtain ⟨tag, -, chosen⟩ := exists_of_bind_eq_ok decoded
  cases found : schema.get? tag with
  | none =>
    rw [found] at chosen
    cases chosen
  | some layout =>
    rw [found] at chosen
    exact ⟨layout, List.mem_of_find?_eq_some found, chosen⟩

/-- What is encoded against a layout decodes against that layout under any settings, whether or not
its names could be declared; a schema that declares the layout finds it by the tag. -/
theorem encoded_labelled_message_reads_back {layout : Layout} {message : LabelledMessage}
    {writing : Settings} {bytes : Bytes} (encoded : layout.encode writing message = .ok bytes)
    (reading : Settings) :
    layout.decode reading bytes = .ok message.normalize ∧
      ∀ (source : String) (schema : Schema), parse source = .ok schema →
        layout ∈ schema.layouts → schema.decode reading bytes = .ok message.normalize := by
  obtain ⟨plain, rfl⟩ := Layout.eq_layout_of_encode encoded
  rw [Layout.encode_layout message writing plain] at encoded
  obtain ⟨rfl, free⟩ := LabelledMessage.sealed_eq_ok encoded
  have decoded := Layout.decode_wire message reading [] plain free
  have tagged := message.leadingTag_wire [] plain free
  rw [List.append_nil] at decoded tagged
  refine ⟨decoded, ?_⟩
  intro source schema parsed member
  have named := wellNamed_of_parse parsed
  rw [decode_eq_of_leadingTag named.distinct member tagged reading]
  exact decoded

theorem reading_with_repeated_field_comes_back :
    Layout.encode ⟨"Reading", [⟨"v", .integer⟩, ⟨"v", .text⟩]⟩ ⟨20, .lenient⟩
        ⟨"Reading", [("v", .integer (-7)), ("v", .text none)]⟩ = .ok (Utf8.encode "Reading|-7||") ∧
      parse "MESSAGE Other\nMESSAGE Reading\nFIELD v int\nFIELD v string" =
        .ok ⟨[⟨"Other", []⟩, ⟨"Reading", [⟨"v", .integer⟩, ⟨"v", .text⟩]⟩]⟩ ∧
      Layout.decode ⟨"Reading", [⟨"v", .integer⟩, ⟨"v", .text⟩]⟩ ⟨0, .exact⟩
        (Utf8.encode "Reading|-7||") =
          .ok ⟨"Reading", [("v", .integer (-7)), ("v", .text (some ""))]⟩ ∧
      Schema.decode ⟨[⟨"Other", []⟩, ⟨"Reading", [⟨"v", .integer⟩, ⟨"v", .text⟩]⟩]⟩ ⟨0, .exact⟩
        (Utf8.encode "Reading|-7||") =
          .ok ⟨"Reading", [("v", .integer (-7)), ("v", .text (some ""))]⟩ := by
  have encoded : Layout.encode ⟨"Reading", [⟨"v", .integer⟩, ⟨"v", .text⟩]⟩ ⟨20, .lenient⟩
      ⟨"Reading", [("v", .integer (-7)), ("v", .text none)]⟩ =
        .ok (Utf8.encode "Reading|-7||") := by
    decide +kernel
  have parsed : parse "MESSAGE Other\nMESSAGE Reading\nFIELD v int\nFIELD v string" =
      .ok ⟨[⟨"Other", []⟩, ⟨"Reading", [⟨"v", .integer⟩, ⟨"v", .text⟩]⟩]⟩ := by
    decide +kernel
  have readBack := encoded_labelled_message_reads_back encoded ⟨0, .exact⟩
  exact ⟨encoded, parsed, readBack.1, readBack.2 _ _ parsed (by simp)⟩

end PipeCodec.Schema
