import PipeCodec.Proofs.Message.Dispatch
import PipeCodec.Proofs.Text.OneLine

/-!
# Answers on one line

A rendered message quotes its texts, so it stays on one line whatever they hold.  A refusal is
worded with texts as they are, and these are names of fields and parts of the bytes that were
decoded.  So bytes that hold no line feed are refused on one line.
-/

set_option autoImplicit false

namespace PipeCodec

theorem Message.oneLine_render (message : Message) : OneLine message.render := by
  cases message with
  | login record =>
    rw [render, oneLine_applied]
    refine ⟨by simp [OneLine], oneLine_labelled (by simp [OneLine, Record.tag]) ?_⟩
    simp only [List.forall_mem_cons, oneLine_quoteOption, and_true]
    simp [OneLine]
  | status record =>
    rw [render, oneLine_applied]
    refine ⟨by simp [OneLine], oneLine_labelled (by simp [OneLine, Record.tag]) ?_⟩
    simp only [List.forall_mem_cons, oneLine_quoteOption, Decimal.oneLine_render, and_true]
    simp [OneLine]
  | packet record =>
    rw [render, oneLine_applied]
    refine ⟨by simp [OneLine], oneLine_labelled (by simp [OneLine, Record.tag]) ?_⟩
    simp only [List.forall_mem_cons, oneLine_quoteOption, Decimal.oneLine_render, and_true]
    simp [OneLine]

namespace WireError

theorem oneLine_malformedText {field : String} (named : OneLine field) :
    OneLine (malformedText field).message := by
  change OneLine ("field '" ++ field ++ "' is not valid UTF-8")
  simpa [OneLine] using named

theorem oneLine_malformedInteger {field value : String} (named : OneLine field)
    (valued : OneLine value) : OneLine (malformedInteger field value).message := by
  change OneLine ("field '" ++ field ++ "' is not a valid integer: '" ++ value ++ "'")
  simpa [OneLine] using And.intro named valued

theorem oneLine_unknownType {tag : String} (tagged : OneLine tag) :
    OneLine (unknownType tag).message := by
  change OneLine ("unknown message type '" ++ tag ++ "'")
  simpa [OneLine] using tagged

end WireError

theorem Schema.oneLine_refusal {schema : Schema} {settings : Settings} {bytes : Bytes}
    {cause : WireError} (distinct : (schema.layouts.map (·.name)).Nodup)
    (named : ∀ layout ∈ schema.layouts, ∀ field ∈ layout.fields, OneLine field.name)
    (absent : 0x0A ∉ bytes) (refused : schema.decode settings bytes = .error cause) :
    OneLine cause.message := by
  have shown : ∀ span ∈ Wire.spans bytes, OneLine (Utf8.lossy span) := by
    intro span among
    exact oneLine_lossy fun member => absent (Wire.mem_of_mem_spans among member)
  rcases dispatch_cases schema bytes with scanned | ⟨layout, member, rest, scanned⟩ |
    ⟨tag, rest, scanned, foreign⟩
  · rw [decode, leadingTag_eq, scanned] at refused
    cases refused
    decide
  · rw [decode_of_ownTag distinct member scanned] at refused
    obtain ⟨field, ofLayout, rfl | ⟨span, among, rfl⟩⟩ :=
      Layout.refusal_of_ownTag scanned refused
    · exact WireError.oneLine_malformedText (named layout member field ofLayout)
    · have inBytes : span ∈ Wire.spans bytes := by
        rw [scanned]
        exact List.mem_cons_of_mem _ among
      exact WireError.oneLine_malformedInteger (named layout member field ofLayout)
        (shown span inBytes)
  · rw [decode_of_foreignTag scanned foreign] at refused
    cases refused
    apply WireError.oneLine_unknownType
    apply shown tag
    rw [scanned]
    exact List.mem_cons_self

theorem Message.oneLine_refusal {settings : Settings} {bytes : Bytes} {cause : WireError}
    (absent : 0x0A ∉ bytes) (refused : Message.decode settings bytes = .error cause) :
    OneLine cause.message := by
  have named : ∀ layout ∈ Schema.ofRecords.layouts, ∀ field ∈ layout.fields,
      OneLine field.name := by
    decide
  exact Schema.oneLine_refusal Message.distinct_names named absent
    (Message.decode_eq_error_iff.mpr refused)

end PipeCodec
