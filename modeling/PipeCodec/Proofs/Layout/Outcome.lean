import PipeCodec.Proofs.Message.Encoding

/-!
# What encoding against a layout yields

A labelled message is checked in a fixed order before it is written: its name for the delimiter,
its name against that of the layout, its values against the fields, each text for the delimiter, and
last the length of the whole.  The first check that fails decides, whatever the later ones would
say.  Names and fields of the layout may be any: they need not come from a description, and names
may be repeated.
-/

set_option autoImplicit false

namespace PipeCodec

/-! ## Where two lists part -/

/-- The index is the first at which the lists differ.  One of them may have ended before it. -/
structure FirstDifference {α : Type} (left right : List α) (index : Nat) : Prop where
  differs : left[index]? ≠ right[index]?
  agrees : ∀ earlier < index, left[earlier]? = right[earlier]?

namespace FirstDifference

variable {α : Type} {left right : List α}

theorem zero (differs : left[0]? ≠ right[0]?) : FirstDifference left right 0 :=
  ⟨differs, fun earlier before => absurd before (Nat.not_lt_zero earlier)⟩

theorem ne {index : Nat} (parts : FirstDifference left right index) : left ≠ right := by
  intro same
  apply parts.differs
  rw [same]

theorem unique {index other : Nat} (first : FirstDifference left right index)
    (second : FirstDifference left right other) : index = other := by
  rcases Nat.lt_trichotomy index other with before | same | behind
  · exact absurd (second.agrees index before) first.differs
  · exact same
  · exact absurd (first.agrees other behind) second.differs

theorem cons {index : Nat} (x : α) (parts : FirstDifference left right index) :
    FirstDifference (x :: left) (x :: right) (index + 1) := by
  refine ⟨parts.differs, ?_⟩
  intro earlier before
  cases earlier with
  | zero => rfl
  | succ earlier => exact parts.agrees earlier (Nat.lt_of_succ_lt_succ before)

end FirstDifference

/-! ## The outcome -/

/-- The name under which a departure at an index is reported: that of the field, or that of the
value where there is no field left. -/
inductive Layout.Departs (fields : List Field) (values : List (String × Value)) (index : Nat) :
    String → Prop
  | field {field : Field} : fields[index]? = some field → Departs fields values index field.name
  | surplus {entry : String × Value} : fields[index]? = none → values[index]? = some entry →
      Departs fields values index entry.1

/-- The one outcome of encoding a message against a layout.  Each cause is stated together with all
that was found in order before it. -/
inductive Layout.Encodes (layout : Layout) (capacity : Nat) (message : LabelledMessage) :
    Except WireError Bytes → Prop
  | barredName : '|' ∈ message.name.toList →
      Encodes layout capacity message (.error (.delimiterInside "name"))
  | foreign : '|' ∉ message.name.toList → message.name ≠ layout.name →
      Encodes layout capacity message (.error (.typeMismatch layout.name message.name))
  | departing {index : Nat} {name : String} : '|' ∉ message.name.toList →
      message.name = layout.name →
      FirstDifference layout.fields (message.values.map Field.ofEntry) index →
      Departs layout.fields message.values index name →
      Encodes layout capacity message (.error (.layoutMismatch name))
  | barredText {entry : String × Value} : '|' ∉ message.name.toList →
      message.name = layout.name → message.values.map Field.ofEntry = layout.fields →
      message.values.find? (·.2.HoldsDelimiter) = some entry →
      Encodes layout capacity message (.error (.delimiterInside entry.1))
  | tooLong {spans : List Bytes} : '|' ∉ message.name.toList →
      message.name = layout.name → message.values.map Field.ofEntry = layout.fields →
      message.values.find? (·.2.HoldsDelimiter) = none →
      List.Forall₂ (fun entry span => entry.2.Spelling span) message.values spans →
      capacity < Wire.closedLength message.name spans →
      Encodes layout capacity message
        (.error (.overCapacity (Wire.closedLength message.name spans) capacity))
  | written {spans : List Bytes} : '|' ∉ message.name.toList →
      message.name = layout.name → message.values.map Field.ofEntry = layout.fields →
      message.values.find? (·.2.HoldsDelimiter) = none →
      List.Forall₂ (fun entry span => entry.2.Spelling span) message.values spans →
      Wire.closedLength message.name spans ≤ capacity →
      Encodes layout capacity message
        (.ok ((Utf8.encode message.name :: spans).flatMap Wire.closeSpan))

namespace Layout

/-! ## The comparison with the fields -/

theorem Departs.unique {fields : List Field} {values : List (String × Value)} {index : Nat}
    {name other : String} (first : Departs fields values index name)
    (second : Departs fields values index other) : name = other := by
  cases first with
  | field found =>
    cases second with
    | field again =>
      rw [found] at again
      rw [Option.some.inj again]
    | surplus ended _ =>
      rw [found] at ended
      cases ended
  | surplus ended found =>
    cases second with
    | field again =>
      rw [ended] at again
      cases again
    | surplus _ again =>
      rw [found] at again
      rw [Option.some.inj again]

theorem Departs.cons {fields : List Field} {values : List (String × Value)} {index : Nat}
    {name : String} (field : Field) (entry : String × Value)
    (departs : Departs fields values index name) :
    Departs (field :: fields) (entry :: values) (index + 1) name := by
  cases departs with
  | field found => exact .field found
  | surplus ended found => exact .surplus ended found

theorem exists_departs_of_firstMismatch? (fields : List Field) :
    ∀ (values : List (String × Value)) (name : String), firstMismatch? fields values = some name →
      ∃ index, FirstDifference fields (values.map Field.ofEntry) index ∧
        Departs fields values index name := by
  induction fields with
  | nil =>
    intro values name found
    cases values with
    | nil => cases found
    | cons entry values =>
      cases found
      exact ⟨0, .zero (by simp), .surplus rfl rfl⟩
  | cons field fields ih =>
    intro values name found
    cases values with
    | nil =>
      cases found
      exact ⟨0, .zero (by simp), .field rfl⟩
    | cons entry values =>
      by_cases fits : entry.1 = field.name ∧ entry.2.kind = field.kind
      · rw [firstMismatch?, if_pos fits] at found
        obtain ⟨index, parts, departs⟩ := ih values name found
        have same : Field.ofEntry entry = field := by
          rw [Field.ofEntry, fits.1, fits.2]
        refine ⟨index + 1, ?_, departs.cons field entry⟩
        rw [List.map_cons, same]
        exact parts.cons field
      · rw [firstMismatch?, if_neg fits] at found
        cases found
        refine ⟨0, .zero ?_, .field rfl⟩
        intro same
        have same : field = Field.ofEntry entry := Option.some.inj same
        apply fits
        rw [same]
        exact ⟨rfl, rfl⟩

theorem firstMismatch?_of_departs {fields : List Field} {values : List (String × Value)}
    {index : Nat} {name : String}
    (parts : FirstDifference fields (values.map Field.ofEntry) index)
    (departs : Departs fields values index name) : firstMismatch? fields values = some name := by
  cases found : firstMismatch? fields values with
  | none => exact absurd ((firstMismatch?_eq_none_iff fields values).mp found).symm parts.ne
  | some other =>
    obtain ⟨first, otherParts, otherDeparts⟩ :=
      exists_departs_of_firstMismatch? fields values other found
    rw [otherParts.unique parts] at otherDeparts
    rw [otherDeparts.unique departs]

/-! ## The checks in order -/

theorem encodes_sealed {layout : Layout} {message : LabelledMessage} (capacity : Nat)
    (plain : '|' ∉ message.name.toList) (named : message.name = layout.name)
    (fits : message.values.map Field.ofEntry = layout.fields) :
    layout.Encodes capacity message (message.sealed capacity) := by
  have spelled := (LabelledMessage.spelled_iff message.values _).mpr rfl
  rw [LabelledMessage.sealed, LabelledMessage.delimited?_eq, LabelledMessage.length_wire]
  cases held : message.values.find? (·.2.HoldsDelimiter) with
  | some entry => exact .barredText plain named fits held
  | none =>
    by_cases long : capacity < Wire.closedLength message.name (message.values.map (·.2.span))
    · simp only [if_pos long]
      exact .tooLong plain named fits held spelled long
    · simp only [if_neg long]
      exact .written plain named fits held spelled (Nat.le_of_not_lt long)

theorem encode_eq_checks (layout : Layout) (settings : Settings) (message : LabelledMessage) :
    layout.encode settings message =
      if '|' ∈ message.name.toList then .error (.delimiterInside "name")
      else if message.name ≠ layout.name then .error (.typeMismatch layout.name message.name)
      else
        match firstMismatch? layout.fields message.values with
        | some field => .error (.layoutMismatch field)
        | none => message.sealed settings.capacity := by
  unfold encode
  have bars := Wire.delimiter_mem_encode_iff message.name
  by_cases barred : '|' ∈ message.name.toList
  · rw [if_pos barred, if_pos (bars.mpr barred)]
  · rw [if_neg barred, if_neg (mt bars.mp barred)]
    cases firstMismatch? layout.fields message.values with
    | some field => rfl
    | none => simp only [finish_writeValues]

theorem encodes_encode (layout : Layout) (settings : Settings) (message : LabelledMessage) :
    layout.Encodes settings.capacity message (layout.encode settings message) := by
  rw [encode_eq_checks]
  split_ifs with barred foreign
  · exact .barredName barred
  · exact .foreign barred foreign
  · have named := not_not.mp foreign
    cases found : firstMismatch? layout.fields message.values with
    | some name =>
      obtain ⟨index, parts, departs⟩ := exists_departs_of_firstMismatch? _ _ name found
      exact .departing barred named parts departs
    | none =>
      apply encodes_sealed settings.capacity barred named
      exact (firstMismatch?_eq_none_iff _ _).mp found

theorem encode_eq_sealed {layout : Layout} {message : LabelledMessage} (settings : Settings)
    (plain : '|' ∉ message.name.toList) (named : message.name = layout.name)
    (fits : message.values.map Field.ofEntry = layout.fields) :
    layout.encode settings message = message.sealed settings.capacity := by
  rw [encode_eq_checks, if_neg plain, if_neg (not_not_intro named),
    (firstMismatch?_eq_none_iff _ _).mpr fits]

theorem encode_of_encodes {layout : Layout} {settings : Settings} {message : LabelledMessage}
    {outcome : Except WireError Bytes}
    (encoded : layout.Encodes settings.capacity message outcome) :
    layout.encode settings message = outcome := by
  cases encoded with
  | barredName barred => rw [encode_eq_checks, if_pos barred]
  | foreign plain other => rw [encode_eq_checks, if_neg plain, if_pos other]
  | departing plain named parts departs =>
    rw [encode_eq_checks, if_neg plain, if_neg (not_not_intro named),
      firstMismatch?_of_departs parts departs]
  | barredText plain named fits held =>
    rw [encode_eq_sealed settings plain named fits, LabelledMessage.sealed,
      LabelledMessage.delimited?_eq, held]
  | tooLong plain named fits held spelled long =>
    rw [(LabelledMessage.spelled_iff _ _).mp spelled] at long ⊢
    rw [encode_eq_sealed settings plain named fits, LabelledMessage.sealed,
      LabelledMessage.delimited?_eq, held, LabelledMessage.length_wire]
    exact if_pos long
  | written plain named fits held spelled room =>
    rw [(LabelledMessage.spelled_iff _ _).mp spelled] at room ⊢
    rw [encode_eq_sealed settings plain named fits, LabelledMessage.sealed,
      LabelledMessage.delimited?_eq, held, LabelledMessage.length_wire]
    exact if_neg (Nat.not_lt.mpr room)

/-- Encoding against a layout has the outcome that the first failing check tells, or else gives the
name and the span of every value, each with its delimiter. -/
theorem encoding_is_told_by_the_first_failing_check (layout : Layout) (settings : Settings)
    (message : LabelledMessage) (outcome : Except WireError Bytes) :
    layout.encode settings message = outcome ↔
      layout.Encodes settings.capacity message outcome := by
  constructor
  · rintro rfl
    exact encodes_encode layout settings message
  · exact encode_of_encodes

/-- The names are the same throughout, a text holds the delimiter and nothing fits the capacity, but
what counts is the kind of the second value. -/
theorem departing_kind_counts_first :
    Layout.encode ⟨"P", [⟨"a", .text⟩, ⟨"a", .text⟩]⟩ ⟨0, .lenient⟩
      ⟨"P", [("a", .text (some "|")), ("a", .integer 7), ("b", .text none)]⟩ =
        .error (.layoutMismatch "a") := by
  rw [encoding_is_told_by_the_first_failing_check]
  have parts : FirstDifference [⟨"a", .text⟩, ⟨"a", .text⟩]
      ([("a", .text (some "|")), ("a", .integer 7), ("b", .text none)].map Field.ofEntry) 1 := by
    refine ⟨by decide, ?_⟩
    decide
  have departs : Departs [⟨"a", .text⟩, ⟨"a", .text⟩]
      [("a", .text (some "|")), ("a", .integer 7), ("b", .text none)] 1 "a" :=
    @Departs.field _ _ 1 ⟨"a", .text⟩ rfl
  exact .departing (by decide) rfl parts departs

end Layout

end PipeCodec
