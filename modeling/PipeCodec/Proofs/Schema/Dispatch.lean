import PipeCodec.Proofs.Schema.Lookup

/-!
# Dispatch by the leading tag

A dispatcher reads the leading tag as a text and looks its name up, while each layout compares the
bytes of the tag with those of its own name.  The two views agree on all bytes: at most one layout
of a schema accepts the tag, the dispatcher hands over to that one, and it calls the type unknown
exactly where every layout finds another tag than its own.
-/

set_option autoImplicit false

namespace PipeCodec

/-! ## What one layout answers -/

namespace Layout

variable {layout : Layout} {settings : Settings} {bytes : Bytes}

theorem decode_of_foreignTag {tag : Bytes} {rest : List Bytes}
    (scanned : Wire.spans bytes = tag :: rest) (foreign : tag ≠ Utf8.encode layout.name) :
    layout.decode settings bytes = .error (.typeMismatch layout.name (Utf8.lossy tag)) := by
  rw [decode_eq, scanned]
  exact if_neg foreign

/-- Behind its own tag a layout refuses nothing but a field. -/
theorem refusal_of_ownTag {rest : List Bytes} {cause : WireError}
    (scanned : Wire.spans bytes = Utf8.encode layout.name :: rest)
    (refused : layout.decode settings bytes = .error cause) :
    ∃ field ∈ layout.fields, cause = .malformedText field.name ∨
      ∃ span ∈ rest, cause = .malformedInteger field.name (Utf8.lossy span) := by
  rw [decode_eq, scanned] at refused
  simp only [if_true, map_eq_error_iff] at refused
  exact refusal_of_valuesOf layout.fields rest refused

theorem ne_typeMismatch_of_ownTag {rest : List Bytes} (expected found : String)
    (scanned : Wire.spans bytes = Utf8.encode layout.name :: rest) :
    layout.decode settings bytes ≠ .error (.typeMismatch expected found) := by
  intro refused
  obtain ⟨field, -, text | ⟨span, -, integer⟩⟩ := refusal_of_ownTag scanned refused
  · cases text
  · cases integer

theorem ne_unknownType_of_ownTag {rest : List Bytes} (tag : String)
    (scanned : Wire.spans bytes = Utf8.encode layout.name :: rest) :
    layout.decode settings bytes ≠ .error (.unknownType tag) := by
  intro refused
  obtain ⟨field, -, text | ⟨span, -, integer⟩⟩ := refusal_of_ownTag scanned refused
  · cases text
  · cases integer

theorem ownTag_of_decode {message : LabelledMessage}
    (decoded : layout.decode settings bytes = .ok message) :
    ∃ rest, Wire.spans bytes = Utf8.encode layout.name :: rest := by
  cases scanned : Wire.spans bytes with
  | nil =>
    rw [decode_eq, scanned] at decoded
    cases decoded
  | cons tag rest =>
    by_cases own : tag = Utf8.encode layout.name
    · exact ⟨rest, congrArg (· :: rest) own⟩
    · rw [decode_of_foreignTag scanned own] at decoded
      cases decoded

end Layout

/-! ## What a schema answers -/

namespace Schema

variable {schema : Schema} {settings : Settings} {bytes : Bytes}

theorem decode_of_ownTag {layout : Layout} {rest : List Bytes}
    (distinct : (schema.layouts.map (·.name)).Nodup) (member : layout ∈ schema.layouts)
    (scanned : Wire.spans bytes = Utf8.encode layout.name :: rest) :
    schema.decode settings bytes = layout.decode settings bytes := by
  apply decode_eq_of_leadingTag distinct member
  simp only [leadingTag_eq, scanned, Utf8.decode?_encode]

/-- A tag that is no text names no layout, since the bytes of every name are a text. -/
theorem decode_of_foreignTag {tag : Bytes} {rest : List Bytes}
    (scanned : Wire.spans bytes = tag :: rest)
    (foreign : ∀ layout ∈ schema.layouts, tag ≠ Utf8.encode layout.name) :
    schema.decode settings bytes = .error (.unknownType (Utf8.lossy tag)) := by
  rw [decode, leadingTag_eq, scanned]
  cases read : Utf8.decode? tag with
  | none => simp only [read, bind, Except.bind]
  | some text =>
    have absent : schema.get? text = none := by
      rw [get?, List.find?_eq_none]
      intro layout member named
      have named : layout.name = text := by simpa using named
      apply foreign layout member
      rw [named, Utf8.encode_of_decode? read]
    simp only [read, bind, Except.bind, absent, Utf8.lossy_of_decode? read]

/-- Either no bytes are left to dispatch, or one layout owns the tag, or none does. -/
theorem dispatch_cases (schema : Schema) (bytes : Bytes) :
    Wire.spans bytes = [] ∨
    (∃ layout ∈ schema.layouts, ∃ rest, Wire.spans bytes = Utf8.encode layout.name :: rest) ∨
    ∃ tag rest, Wire.spans bytes = tag :: rest ∧
      ∀ layout ∈ schema.layouts, tag ≠ Utf8.encode layout.name := by
  cases scanned : Wire.spans bytes with
  | nil => exact Or.inl rfl
  | cons tag rest =>
    right
    by_cases owned : ∃ layout ∈ schema.layouts, tag = Utf8.encode layout.name
    · obtain ⟨layout, member, own⟩ := owned
      exact Or.inl ⟨layout, member, rest, congrArg (· :: rest) own⟩
    · refine Or.inr ⟨tag, rest, rfl, ?_⟩
      intro layout member own
      exact owned ⟨layout, member, own⟩

theorem decode_eq_ok_iff (distinct : (schema.layouts.map (·.name)).Nodup)
    (message : LabelledMessage) :
    schema.decode settings bytes = .ok message ↔
      ∃ layout ∈ schema.layouts, layout.decode settings bytes = .ok message := by
  constructor
  · exact exists_layout_of_decode
  · rintro ⟨layout, member, decoded⟩
    obtain ⟨rest, scanned⟩ := Layout.ownTag_of_decode decoded
    rw [decode_of_ownTag distinct member scanned, decoded]

theorem eq_of_ownTag {left right : Layout} {leftRest rightRest : List Bytes}
    (distinct : (schema.layouts.map (·.name)).Nodup) (leftMember : left ∈ schema.layouts)
    (rightMember : right ∈ schema.layouts)
    (leftOwns : Wire.spans bytes = Utf8.encode left.name :: leftRest)
    (rightOwns : Wire.spans bytes = Utf8.encode right.name :: rightRest) : left = right := by
  have same : left.name = right.name :=
    Utf8.encode_injective (List.cons.inj (leftOwns.symm.trans rightOwns)).1
  exact List.inj_on_of_nodup_map distinct leftMember rightMember same

theorem eq_of_decode {left right : Layout} {leftMessage rightMessage : LabelledMessage}
    (distinct : (schema.layouts.map (·.name)).Nodup) (leftMember : left ∈ schema.layouts)
    (rightMember : right ∈ schema.layouts)
    (leftDecoded : left.decode settings bytes = .ok leftMessage)
    (rightDecoded : right.decode settings bytes = .ok rightMessage) : left = right := by
  obtain ⟨leftRest, leftOwns⟩ := Layout.ownTag_of_decode leftDecoded
  obtain ⟨rightRest, rightOwns⟩ := Layout.ownTag_of_decode rightDecoded
  exact eq_of_ownTag distinct leftMember rightMember leftOwns rightOwns

theorem decode_ne_typeMismatch (distinct : (schema.layouts.map (·.name)).Nodup)
    (expected found : String) :
    schema.decode settings bytes ≠ .error (.typeMismatch expected found) := by
  rcases dispatch_cases schema bytes with scanned | ⟨layout, member, rest, scanned⟩ |
    ⟨tag, rest, scanned, foreign⟩
  · rw [decode, leadingTag_eq, scanned]
    intro mismatch
    cases mismatch
  · rw [decode_of_ownTag distinct member scanned]
    exact Layout.ne_typeMismatch_of_ownTag expected found scanned
  · rw [decode_of_foreignTag scanned foreign]
    intro mismatch
    cases mismatch

/-- An unknown type is one that all layouts find to be another than their own. -/
theorem typeMismatch_of_unknownType {tag : String}
    (distinct : (schema.layouts.map (·.name)).Nodup)
    (unknown : schema.decode settings bytes = .error (.unknownType tag)) :
    bytes ≠ [] ∧ ∀ layout ∈ schema.layouts,
      layout.decode settings bytes = .error (.typeMismatch layout.name tag) := by
  rcases dispatch_cases schema bytes with scanned | ⟨layout, member, rest, scanned⟩ |
    ⟨found, rest, scanned, foreign⟩
  · rw [decode, leadingTag_eq, scanned] at unknown
    cases unknown
  · rw [decode_of_ownTag distinct member scanned] at unknown
    exact absurd unknown (Layout.ne_unknownType_of_ownTag tag scanned)
  · rw [decode_of_foreignTag scanned foreign] at unknown
    cases unknown
    refine ⟨?_, ?_⟩
    · rintro rfl
      rw [Wire.spans_nil] at scanned
      cases scanned
    · intro layout member
      exact Layout.decode_of_foreignTag scanned (foreign layout member)

theorem unknownType_of_typeMismatch {tag : String} (someByte : bytes ≠ [])
    (someLayout : schema.layouts ≠ [])
    (mismatch : ∀ layout ∈ schema.layouts, ∃ expected,
      layout.decode settings bytes = .error (.typeMismatch expected tag)) :
    schema.decode settings bytes = .error (.unknownType tag) := by
  obtain ⟨found, rest, scanned⟩ := Wire.exists_spans_eq_cons someByte
  have foreign : ∀ layout ∈ schema.layouts, found ≠ Utf8.encode layout.name := by
    intro layout member own
    obtain ⟨expected, refused⟩ := mismatch layout member
    rw [own] at scanned
    exact Layout.ne_typeMismatch_of_ownTag expected tag scanned refused
  -- Any layout tells what the tag looks like.
  obtain ⟨layout, member⟩ := List.exists_mem_of_ne_nil schema.layouts someLayout
  obtain ⟨expected, refused⟩ := mismatch layout member
  rw [Layout.decode_of_foreignTag scanned (foreign layout member)] at refused
  cases refused
  exact decode_of_foreignTag scanned foreign

/-- All layouts but one find another tag than their own, and that one decides. -/
theorem exists_deciding_layout (distinct : (schema.layouts.map (·.name)).Nodup)
    (someByte : bytes ≠ []) (someLayout : schema.layouts ≠ []) :
    ∃ deciding ∈ schema.layouts,
      (∀ layout ∈ schema.layouts, layout ≠ deciding →
        ∃ found, layout.decode settings bytes = .error (.typeMismatch layout.name found)) ∧
      ∀ cause, deciding.decode settings bytes = .error cause →
        (∀ expected found, cause ≠ .typeMismatch expected found) →
        schema.decode settings bytes = .error cause := by
  rcases dispatch_cases schema bytes with scanned | ⟨owner, member, rest, scanned⟩ |
    ⟨tag, rest, scanned, foreign⟩
  · obtain ⟨tag, rest, other⟩ := Wire.exists_spans_eq_cons someByte
    rw [scanned] at other
    cases other
  · refine ⟨owner, member, ?_, ?_⟩
    · intro layout among differs
      refine ⟨_, Layout.decode_of_foreignTag scanned ?_⟩
      intro own
      have same := Utf8.encode_injective own
      exact differs (List.inj_on_of_nodup_map distinct among member same.symm)
    · intro cause refused other
      rw [decode_of_ownTag distinct member scanned, refused]
  · obtain ⟨layout, member⟩ := List.exists_mem_of_ne_nil schema.layouts someLayout
    refine ⟨layout, member, ?_, ?_⟩
    · intro other among differs
      exact ⟨_, Layout.decode_of_foreignTag scanned (foreign other among)⟩
    · intro cause refused other
      rw [Layout.decode_of_foreignTag scanned (foreign layout member)] at refused
      cases refused
      exact absurd rfl (other _ _)

end Schema

end PipeCodec
