import PipeCodec.Proofs.Schema.Builtin
import PipeCodec.Proofs.Schema.Dispatch

/-!
# Dispatch over the built-in records

A message is dispatched over the layouts of the three record types, and these have names of their
own.  So what is known of a schema carries over: each outcome of the dispatcher for messages is told
by the outcomes of the three decoders that know their type beforehand.
-/

set_option autoImplicit false

namespace PipeCodec

namespace Message

inductive Kind where
  | login
  | status
  | packet
  deriving DecidableEq

def kind : Message → Kind
  | login _ => .login
  | status _ => .status
  | packet _ => .packet

namespace Kind

def tag : Kind → String
  | login => Record.tag Login
  | status => Record.tag Status
  | packet => Record.tag Packet

def decode (settings : Settings) (bytes : Bytes) : Kind → Except WireError Message
  | login => Message.login <$> Record.decode Login settings bytes
  | status => Message.status <$> Record.decode Status settings bytes
  | packet => Message.packet <$> Record.decode Packet settings bytes

def layout : Kind → Layout
  | login => Record.layout Login
  | status => Record.layout Status
  | packet => Record.layout Packet

theorem layout_mem (kind : Kind) : kind.layout ∈ Schema.ofRecords.layouts := by
  cases kind with
  | login => simp [layout, Schema.ofRecords]
  | status => simp [layout, Schema.ofRecords]
  | packet => simp [layout, Schema.ofRecords]

theorem exists_of_mem {described : Layout} (member : described ∈ Schema.ofRecords.layouts) :
    ∃ kind : Kind, described = kind.layout := by
  simp only [Schema.ofRecords, List.mem_cons, List.not_mem_nil, or_false] at member
  rcases member with rfl | rfl | rfl
  · exact ⟨login, rfl⟩
  · exact ⟨status, rfl⟩
  · exact ⟨packet, rfl⟩

theorem layout_name (kind : Kind) : kind.layout.name = kind.tag := by
  cases kind with
  | login => rfl
  | status => rfl
  | packet => rfl

theorem layout_injective {left right : Kind} (same : left.layout = right.layout) :
    left = right := by
  have named := congrArg Layout.name same
  rw [layout_name, layout_name] at named
  revert named
  cases left <;> cases right <;> decide

theorem eq_of_encode_tag {left right : Kind}
    (same : Utf8.encode left.tag = Utf8.encode right.tag) : left = right := by
  have tags := Utf8.encode_injective same
  revert tags
  cases left <;> cases right <;> decide

theorem decode_layout (settings : Settings) (bytes : Bytes) (kind : Kind) :
    kind.layout.decode settings bytes = Message.toLabelled <$> kind.decode settings bytes := by
  cases kind with
  | login => exact Schema.decode_layout (fun record => rfl) settings bytes
  | status => exact Schema.decode_layout (fun record => rfl) settings bytes
  | packet => exact Schema.decode_layout (fun record => rfl) settings bytes

theorem decode_eq_error_iff {settings : Settings} {bytes : Bytes} {cause : WireError}
    (kind : Kind) : kind.layout.decode settings bytes = .error cause ↔
      kind.decode settings bytes = .error cause := by
  rw [decode_layout, map_eq_error_iff]

/-- A message comes only from the decoder of its own type. -/
theorem kind_of_decode {settings : Settings} {bytes : Bytes} {message : Message} {kind : Kind}
    (decoded : kind.decode settings bytes = .ok message) : message.kind = kind := by
  cases kind with
  | login =>
    obtain ⟨record, -, rfl⟩ := exists_of_map_eq_ok decoded
    rfl
  | status =>
    obtain ⟨record, -, rfl⟩ := exists_of_map_eq_ok decoded
    rfl
  | packet =>
    obtain ⟨record, -, rfl⟩ := exists_of_map_eq_ok decoded
    rfl

end Kind

theorem tag_kind (message : Message) : message.kind.tag = message.tag := by
  cases message with
  | login record => rfl
  | status record => rfl
  | packet record => rfl

theorem fields_kind (message : Message) :
    message.kind.layout.fields = message.entries.map Field.ofEntry := by
  cases message with
  | login record => rfl
  | status record => rfl
  | packet record => rfl

variable {settings : Settings} {bytes : Bytes}

theorem decode_of_leadingTag {kind : Kind} (tagged : leadingTag bytes = .ok kind.tag) :
    Message.decode settings bytes = kind.decode settings bytes := by
  rw [Message.decode, tagged]
  cases kind with
  | login => rfl
  | status => rfl
  | packet => rfl

/-- Behind the tag of a record type the fields of that type decide. -/
theorem toLabelled_of_ownTag {kind : Kind} {pieces : List Bytes} (settings : Settings)
    (scanned : Wire.spans bytes = Utf8.encode kind.tag :: pieces) :
    Message.toLabelled <$> Message.decode settings bytes =
      LabelledMessage.mk kind.tag <$>
        Layout.valuesOf settings.integers kind.layout.fields pieces := by
  have tagged : leadingTag bytes = .ok kind.tag := by
    simp only [leadingTag_eq, scanned, Utf8.decode?_encode]
  rw [decode_of_leadingTag tagged, ← Kind.decode_layout, Layout.decode_eq, scanned]
  simp only [Kind.layout_name, if_true]

theorem exists_kind_of_decode {message : Message}
    (decoded : Message.decode settings bytes = .ok message) :
    ∃ kind : Kind, kind.decode settings bytes = .ok message := by
  obtain ⟨tag, -, chosen⟩ := exists_of_bind_eq_ok decoded
  split_ifs at chosen with login status packet
  · exact ⟨.login, chosen⟩
  · exact ⟨.status, chosen⟩
  · exact ⟨.packet, chosen⟩

theorem decode_eq_ok_iff (message : Message) :
    Message.decode settings bytes = .ok message ↔
      message.kind.decode settings bytes = .ok message := by
  constructor
  · intro decoded
    obtain ⟨kind, typed⟩ := exists_kind_of_decode decoded
    rw [Kind.kind_of_decode typed]
    exact typed
  · intro typed
    have labelled : message.kind.layout.decode settings bytes = .ok message.toLabelled := by
      rw [Kind.decode_layout, typed]
      rfl
    obtain ⟨rest, scanned⟩ := Layout.ownTag_of_decode labelled
    have tagged : leadingTag bytes = .ok message.kind.tag := by
      simp only [leadingTag_eq, scanned, Utf8.decode?_encode, Kind.layout_name]
    rw [decode_of_leadingTag tagged, typed]

theorem distinct_names : (Schema.ofRecords.layouts.map (·.name)).Nodup := by decide

theorem decode_eq_error_iff {cause : WireError} :
    Schema.ofRecords.decode settings bytes = .error cause ↔
      Message.decode settings bytes = .error cause := by
  rw [Schema.decode_ofRecords, map_eq_error_iff]

theorem decode_eq_unknownType_iff (tag : String) :
    Message.decode settings bytes = .error (.unknownType tag) ↔
      bytes ≠ [] ∧ ∀ kind : Kind,
        kind.decode settings bytes = .error (.typeMismatch kind.tag tag) := by
  rw [← decode_eq_error_iff]
  constructor
  · intro unknown
    obtain ⟨someByte, mismatch⟩ := Schema.typeMismatch_of_unknownType distinct_names unknown
    refine ⟨someByte, ?_⟩
    intro kind
    rw [← Kind.decode_eq_error_iff, ← Kind.layout_name]
    exact mismatch kind.layout kind.layout_mem
  · rintro ⟨someByte, mismatch⟩
    apply Schema.unknownType_of_typeMismatch someByte (List.cons_ne_nil _ _)
    intro layout member
    obtain ⟨kind, rfl⟩ := Kind.exists_of_mem member
    exact ⟨kind.tag, (Kind.decode_eq_error_iff kind).mpr (mismatch kind)⟩

theorem exists_deciding_kind (someByte : bytes ≠ []) :
    ∃ deciding : Kind,
      (∀ kind : Kind, kind ≠ deciding →
        ∃ found, kind.decode settings bytes = .error (.typeMismatch kind.tag found)) ∧
      ∀ cause, deciding.decode settings bytes = .error cause →
        (∀ expected found, cause ≠ .typeMismatch expected found) →
        Message.decode settings bytes = .error cause := by
  obtain ⟨layout, member, others, decides⟩ :=
    Schema.exists_deciding_layout distinct_names someByte (List.cons_ne_nil _ _)
  obtain ⟨deciding, rfl⟩ := Kind.exists_of_mem member
  refine ⟨deciding, ?_, ?_⟩
  · intro kind differs
    obtain ⟨found, mismatch⟩ := others kind.layout kind.layout_mem
      (fun same => differs (Kind.layout_injective same))
    rw [Kind.layout_name, Kind.decode_eq_error_iff] at mismatch
    exact ⟨found, mismatch⟩
  · intro cause refused other
    rw [← decode_eq_error_iff]
    exact decides cause ((Kind.decode_eq_error_iff deciding).mpr refused) other

/-- What leads the bytes decides, under all settings alike, which decoder answers. -/
theorem decode_cases (bytes : Bytes) :
    (bytes = [] ∧ ∀ settings, Message.decode settings bytes = .error .noInput) ∨
    (∃ (kind : Kind) (rest : List Bytes), Wire.spans bytes = Utf8.encode kind.tag :: rest ∧
      ∀ settings, Message.decode settings bytes = kind.decode settings bytes) ∨
    ∃ (tag : Bytes) (rest : List Bytes), Wire.spans bytes = tag :: rest ∧
      (∀ kind : Kind, tag ≠ Utf8.encode kind.tag) ∧
      ∀ settings, Message.decode settings bytes = .error (.unknownType (Utf8.lossy tag)) := by
  rcases Schema.dispatch_cases Schema.ofRecords bytes with scanned |
    ⟨layout, member, rest, scanned⟩ | ⟨tag, rest, scanned, foreign⟩
  · left
    have empty : bytes = [] := by
      by_contra someByte
      obtain ⟨tag, rest, other⟩ := Wire.exists_spans_eq_cons someByte
      rw [scanned] at other
      cases other
    rw [empty]
    exact ⟨rfl, fun settings => rfl⟩
  · right; left
    obtain ⟨kind, rfl⟩ := Kind.exists_of_mem member
    rw [Kind.layout_name] at scanned
    refine ⟨kind, rest, scanned, fun settings => decode_of_leadingTag ?_⟩
    simp only [leadingTag_eq, scanned, Utf8.decode?_encode]
  · right; right
    refine ⟨tag, rest, scanned, ?_, ?_⟩
    · intro kind
      rw [← Kind.layout_name]
      exact foreign kind.layout kind.layout_mem
    · intro settings
      rw [← decode_eq_error_iff]
      exact Schema.decode_of_foreignTag scanned foreign

theorem map_wrap_eq_ok_iff {α : Type} {wrap : α → Message} (injective : wrap.Injective)
    {typed : Except WireError α} {record : α} :
    wrap <$> typed = .ok (wrap record) ↔ typed = .ok record := by
  cases typed with
  | error cause => exact ⟨nofun, nofun⟩
  | ok found => simp [injective.eq_iff]

end Message

/-- Both dispatchers give what the one decoder gives that accepts the tag, and an unknown type where
no decoder does; neither ever reports a mismatch of its own. -/
theorem dispatch_by_tag_is_exact (settings : Settings) (bytes : Bytes) :
    ((∀ record, Message.decode settings bytes = .ok (.login record) ↔
        Record.decode Login settings bytes = .ok record) ∧
      (∀ record, Message.decode settings bytes = .ok (.status record) ↔
        Record.decode Status settings bytes = .ok record) ∧
      (∀ record, Message.decode settings bytes = .ok (.packet record) ↔
        Record.decode Packet settings bytes = .ok record) ∧
      (bytes ≠ [] → ∃ deciding : Message.Kind,
        (∀ kind : Message.Kind, kind ≠ deciding →
          ∃ found, kind.decode settings bytes = .error (.typeMismatch kind.tag found)) ∧
        ∀ cause, deciding.decode settings bytes = .error cause →
          (∀ expected found, cause ≠ .typeMismatch expected found) →
          Message.decode settings bytes = .error cause) ∧
      (∀ tag, Message.decode settings bytes = .error (.unknownType tag) ↔
        bytes ≠ [] ∧ ∀ kind : Message.Kind,
          kind.decode settings bytes = .error (.typeMismatch kind.tag tag)) ∧
      ∀ expected found, Message.decode settings bytes ≠ .error (.typeMismatch expected found)) ∧
    ∀ (source : String) (schema : Schema), Schema.parse source = .ok schema →
      (∀ message, schema.decode settings bytes = .ok message ↔
        ∃ layout ∈ schema.layouts, layout.decode settings bytes = .ok message) ∧
      (∀ left ∈ schema.layouts, ∀ right ∈ schema.layouts, ∀ message other,
        left.decode settings bytes = .ok message → right.decode settings bytes = .ok other →
        left = right) ∧
      (bytes ≠ [] → schema.layouts ≠ [] → ∀ tag,
        (schema.decode settings bytes = .error (.unknownType tag) ↔
          ∀ layout ∈ schema.layouts, ∃ expected,
            layout.decode settings bytes = .error (.typeMismatch expected tag))) ∧
      ∀ expected found, schema.decode settings bytes ≠ .error (.typeMismatch expected found) := by
  refine ⟨⟨?_, ?_, ?_, Message.exists_deciding_kind, Message.decode_eq_unknownType_iff, ?_⟩, ?_⟩
  · intro record
    rw [Message.decode_eq_ok_iff]
    exact Message.map_wrap_eq_ok_iff (fun _ _ => Message.login.inj)
  · intro record
    rw [Message.decode_eq_ok_iff]
    exact Message.map_wrap_eq_ok_iff (fun _ _ => Message.status.inj)
  · intro record
    rw [Message.decode_eq_ok_iff]
    exact Message.map_wrap_eq_ok_iff (fun _ _ => Message.packet.inj)
  · intro expected found
    rw [Ne, ← Message.decode_eq_error_iff]
    exact Schema.decode_ne_typeMismatch Message.distinct_names expected found
  · intro source schema parsed
    have distinct := (Schema.wellNamed_of_parse parsed).distinct
    refine ⟨Schema.decode_eq_ok_iff distinct, ?_, ?_, Schema.decode_ne_typeMismatch distinct⟩
    · intro left leftMember right rightMember message other leftDecoded rightDecoded
      exact Schema.eq_of_decode distinct leftMember rightMember leftDecoded rightDecoded
    · intro someByte someLayout tag
      constructor
      · intro unknown layout member
        exact ⟨layout.name,
          (Schema.typeMismatch_of_unknownType distinct unknown).2 layout member⟩
      · exact Schema.unknownType_of_typeMismatch someByte someLayout

theorem malformed_tag_and_malformed_code_are_dispatched :
    (Schema.parse "MESSAGE A\nMESSAGE B\nFIELD x int" =
        .ok ⟨[⟨"A", []⟩, ⟨"B", [⟨"x", .integer⟩]⟩]⟩ ∧
      Message.decode .standard [0xFF, 0x7C] = .error (.unknownType "\uFFFD") ∧
      Schema.decode ⟨[⟨"A", []⟩, ⟨"B", [⟨"x", .integer⟩]⟩]⟩ .standard [0xFF, 0x7C] =
        .error (.unknownType "\uFFFD")) ∧
    Message.decode ⟨4096, .exact⟩ (Utf8.encode "StatusUpdate|x|") =
      .error (.malformedInteger "code" "x") := by
  have parsed : Schema.parse "MESSAGE A\nMESSAGE B\nFIELD x int" =
      .ok ⟨[⟨"A", []⟩, ⟨"B", [⟨"x", .integer⟩]⟩]⟩ := by
    decide +kernel
  refine ⟨⟨parsed, ?_, ?_⟩, ?_⟩
  · apply ((dispatch_by_tag_is_exact .standard [0xFF, 0x7C]).1.2.2.2.2.1 "\uFFFD").mpr
    refine ⟨List.cons_ne_nil _ _, ?_⟩
    intro kind
    cases kind <;> decide +kernel
  · apply (((dispatch_by_tag_is_exact .standard [0xFF, 0x7C]).2 _ _ parsed).2.2.1
      (List.cons_ne_nil _ _) (List.cons_ne_nil _ _) "\uFFFD").mpr
    intro layout member
    refine ⟨layout.name, ?_⟩
    revert layout
    decide +kernel
  · have refused : Message.Kind.status.decode ⟨4096, .exact⟩ (Utf8.encode "StatusUpdate|x|") =
        .error (.malformedInteger "code" "x") := by
      decide +kernel
    obtain ⟨deciding, others, decides⟩ :=
      (dispatch_by_tag_is_exact ⟨4096, .exact⟩ (Utf8.encode "StatusUpdate|x|")).1.2.2.2.1
        (by decide +kernel)
    by_cases own : .status = deciding
    · rw [← own] at decides
      exact decides _ refused nofun
    · obtain ⟨found, mismatch⟩ := others .status own
      rw [refused] at mismatch
      cases mismatch

end PipeCodec
