import PipeCodec.Proofs.Record
import PipeCodec.Schema.Basic

/-!
# The built-in schema

The description of the built-in records is well formed and lists their three layouts.  Decoding
against it and decoding to a message look at the same leading tag, and behind the tag each layout
reads what its record type reads.  So the two decoders agree on all bytes, in their errors too.  The
encoders agree as well: a record in labelled form passes every check that a layout makes first, and
from there both write the same spans under the same names.
-/

set_option autoImplicit false

namespace PipeCodec.Schema

def ofRecords : Schema :=
  ⟨[Record.layout Login, Record.layout Status, Record.layout Packet]⟩

theorem toList_builtinSource :
    builtinSource.toList = builtinLines.flatMap fun line => line.toList ++ ['\n'] := by
  simp [builtinSource, String.toList_join, List.flatMap_map]

theorem builtin_eq : builtin = .ok ofRecords := by
  -- Evaluated line by line: the joined text would have to be taken apart into characters again.
  have declared : (Declaration.declareAll 1 []
      (Text.lines (builtinLines.flatMap fun line => line.toList ++ ['\n']))).toOption =
      some ofRecords.layouts.reverse := by
    decide +kernel
  rw [← toList_builtinSource] at declared
  cases outcome : Declaration.declareAll 1 [] (Text.lines builtinSource.toList) with
  | error cause =>
    rw [outcome] at declared
    cases declared
  | ok known =>
    rw [outcome] at declared
    have layouts : known = ofRecords.layouts.reverse := Option.some.inj declared
    simp only [builtin, parse, outcome, layouts]
    rfl

theorem get?_cons (layout : Layout) (layouts : List Layout) (tag : String) :
    (Schema.mk (layout :: layouts)).get? tag =
      if tag = layout.name then some layout else (Schema.mk layouts).get? tag := by
  by_cases named : tag = layout.name
  · rw [if_pos named]
    exact List.find?_cons_of_pos (by simp [named])
  · rw [if_neg named]
    exact List.find?_cons_of_neg (by simpa using Ne.symm named)

theorem get?_ofRecords (tag : String) :
    ofRecords.get? tag =
      if tag = Record.tag Login then some (Record.layout Login)
      else if tag = Record.tag Status then some (Record.layout Status)
      else if tag = Record.tag Packet then some (Record.layout Packet)
      else none := by
  rw [ofRecords, get?_cons, get?_cons, get?_cons]
  rfl

theorem decode_layout {α : Type} [Record α] [LawfulRecord α] {wrap : α → Message}
    (labels : ∀ record, (wrap record).toLabelled = Record.toLabelled record) (settings : Settings)
    (bytes : Bytes) :
    (Record.layout α).decode settings bytes =
      Message.toLabelled <$> wrap <$> Record.decode α settings bytes := by
  have same : Message.toLabelled ∘ wrap = Record.toLabelled := funext labels
  rw [← comp_map, same, Record.toLabelled_decode]

theorem decode_ofRecords (settings : Settings) (bytes : Bytes) :
    ofRecords.decode settings bytes = Message.toLabelled <$> Message.decode settings bytes := by
  rw [decode, Message.decode]
  cases leadingTag bytes with
  | error cause => rfl
  | ok tag =>
    simp only [bind, Except.bind, get?_ofRecords]
    split_ifs with login status packet
    · exact decode_layout (fun record => rfl) settings bytes
    · exact decode_layout (fun record => rfl) settings bytes
    · exact decode_layout (fun record => rfl) settings bytes
    · rfl

theorem decode_of_describes {α : Type} [Record α] [LawfulRecord α] {layout : Layout}
    (described : layout.describes α = true) (settings : Settings) (bytes : Bytes) :
    layout.decode settings bytes = Record.toLabelled <$> Record.decode α settings bytes := by
  rw [Record.eq_layout_of_describes described, Record.toLabelled_decode]

/-- The built-in schema exists and decodes all bytes as the built-in records do, and so does every
layout that describes one of them. -/
theorem builtin_and_described_layouts_decode_as_records :
    (∃ schema, builtin = .ok schema ∧ ∀ (settings : Settings) (bytes : Bytes),
      schema.decode settings bytes = Message.toLabelled <$> Message.decode settings bytes) ∧
    ∀ (layout : Layout) (settings : Settings) (bytes : Bytes),
      (layout.describes Login = true →
        layout.decode settings bytes =
          Record.toLabelled <$> Record.decode Login settings bytes) ∧
      (layout.describes Status = true →
        layout.decode settings bytes =
          Record.toLabelled <$> Record.decode Status settings bytes) ∧
      (layout.describes Packet = true →
        layout.decode settings bytes =
          Record.toLabelled <$> Record.decode Packet settings bytes) := by
  refine ⟨⟨ofRecords, builtin_eq, decode_ofRecords⟩, ?_⟩
  intro layout settings bytes
  refine ⟨?_, ?_, ?_⟩
  · intro described
    exact decode_of_describes described settings bytes
  · intro described
    exact decode_of_describes described settings bytes
  · intro described
    exact decode_of_describes described settings bytes

theorem described_status_layout_refuses_a_word :
    Layout.describes ⟨"StatusUpdate", [⟨"code", .integer⟩, ⟨"message", .text⟩]⟩ Status = true ∧
      Layout.decode ⟨"StatusUpdate", [⟨"code", .integer⟩, ⟨"message", .text⟩]⟩ ⟨4096, .exact⟩
          (Utf8.encode "StatusUpdate|x|m|") =
        Record.toLabelled <$>
          Record.decode Status ⟨4096, .exact⟩ (Utf8.encode "StatusUpdate|x|m|") ∧
      Record.decode Status ⟨4096, .exact⟩ (Utf8.encode "StatusUpdate|x|m|") =
        .error (.malformedInteger "code" "x") := by
  have described :
      Layout.describes ⟨"StatusUpdate", [⟨"code", .integer⟩, ⟨"message", .text⟩]⟩ Status = true := by
    decide
  refine ⟨described, ?_, by decide +kernel⟩
  exact (builtin_and_described_layouts_decode_as_records.2 _ _ _).2.1 described

/-! ## Encoding -/

theorem describes_layout (α : Type) [Record α] : (Record.layout α).describes α = true := by
  simp [Layout.describes, Record.layout]

theorem encode_of_describes {α : Type} [Record α] [LawfulRecord α] {layout : Layout}
    (described : layout.describes α = true) (settings : Settings) (record : α) :
    layout.encode settings (Record.toLabelled record) = Record.encode settings record := by
  have plain : Wire.delimiter ∉ Utf8.encode (Record.toLabelled record).name :=
    LawfulRecord.plain_tag
  rw [Record.eq_layout_of_describes described, ← Record.layout_toLabelled record,
    Layout.encode_layout _ settings plain, Record.encode_eq_sealed]

/-- The built-in schema has a layout for every message, and encodes it as the message itself; every
layout that describes a record type encodes its records as that type does. -/
theorem builtin_and_described_layouts_encode_as_records :
    (∃ schema, builtin = .ok schema ∧ ∀ (settings : Settings) (message : Message),
      ∃ layout, schema.get? message.tag = some layout ∧
        layout.encode settings message.toLabelled = message.encode settings) ∧
    ∀ (layout : Layout) (settings : Settings),
      (layout.describes Login = true → ∀ record : Login,
        layout.encode settings (Record.toLabelled record) = Record.encode settings record) ∧
      (layout.describes Status = true → ∀ record : Status,
        layout.encode settings (Record.toLabelled record) = Record.encode settings record) ∧
      (layout.describes Packet = true → ∀ record : Packet,
        layout.encode settings (Record.toLabelled record) = Record.encode settings record) := by
  refine ⟨⟨ofRecords, builtin_eq, ?_⟩, ?_⟩
  · intro settings message
    cases message with
    | login record => exact ⟨Record.layout Login, get?_ofRecords _,
        encode_of_describes (describes_layout Login) settings record⟩
    | status record => exact ⟨Record.layout Status, get?_ofRecords _,
        encode_of_describes (describes_layout Status) settings record⟩
    | packet record => exact ⟨Record.layout Packet, get?_ofRecords _,
        encode_of_describes (describes_layout Packet) settings record⟩
  · intro layout settings
    refine ⟨?_, ?_, ?_⟩
    · intro described record
      exact encode_of_describes described settings record
    · intro described record
      exact encode_of_describes described settings record
    · intro described record
      exact encode_of_describes described settings record

theorem described_status_layout_refuses_a_bar :
    Layout.describes ⟨"StatusUpdate", [⟨"code", .integer⟩, ⟨"message", .text⟩]⟩ Status = true ∧
      Layout.encode ⟨"StatusUpdate", [⟨"code", .integer⟩, ⟨"message", .text⟩]⟩ ⟨3, .lenient⟩
          ⟨"StatusUpdate", [("code", .integer (-5)), ("message", .text (some "a|b"))]⟩ =
        Record.encode ⟨3, .lenient⟩ (Status.mk (-5) (some "a|b")) ∧
      Record.encode ⟨3, .lenient⟩ (Status.mk (-5) (some "a|b")) =
        .error (.delimiterInside "message") := by
  have described :
      Layout.describes ⟨"StatusUpdate", [⟨"code", .integer⟩, ⟨"message", .text⟩]⟩ Status = true := by
    decide
  refine ⟨described, ?_, by decide +kernel⟩
  exact (builtin_and_described_layouts_encode_as_records.2 _ _).2.1 described ⟨-5, some "a|b"⟩

end PipeCodec.Schema
