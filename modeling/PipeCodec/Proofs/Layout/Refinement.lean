import PipeCodec.Proofs.Layout.Positional

/-!
# Exact integers refine lenient ones

The two rules for integers differ in nothing but the pieces of integer fields that are no numerals
of a word.  So exact decoding either gives what lenient decoding gives, or it refuses the first such
piece.  A text that lenient decoding refuses is refused by exact decoding as well, unless such a
piece stands before it.
-/

set_option autoImplicit false

namespace PipeCodec

inductive WireError.BeforeFields : WireError → Prop
  | noInput : BeforeFields .noInput
  | typeMismatch (expected found : String) : BeforeFields (.typeMismatch expected found)
  | unknownType (tag : String) : BeforeFields (.unknownType tag)

/-- If the field is an integer and has a piece, that is a sign or none, one or more digits, and
within the range of the word. -/
def Field.Sound (field : Field) (piece : Option Bytes) : Prop :=
  field.kind = .integer → ∀ bytes, piece = some bytes →
    ∃ word : Int32, Decimal.Denotes bytes word.toInt

def Layout.AllSound (fields : List Field) (pieces : List Bytes) : Prop :=
  ∀ (index : Nat) (field : Field), fields[index]? = some field → field.Sound pieces[index]?

structure Layout.FirstUnsound (fields : List Field) (pieces : List Bytes) (index : Nat)
    (field : Field) (piece : Bytes) : Prop where
  field_at : fields[index]? = some field
  integer : field.kind = .integer
  piece_at : pieces[index]? = some piece
  unsound : ∀ word : Int32, ¬ Decimal.Denotes piece word.toInt
  before : ∀ earlier < index, ∀ other, fields[earlier]? = some other →
    other.Sound pieces[earlier]?

structure Layout.FirstRefusal (integers : IntegerRule) (fields : List Field) (pieces : List Bytes)
    (index : Nat) (cause : WireError) : Prop where
  here : ∃ field, fields[index]? = some field ∧
    field.Takes integers pieces[index]? (.error cause)
  before : ∀ earlier < index, ∀ other, fields[earlier]? = some other →
    ∃ value, other.Takes integers pieces[earlier]? (.ok value)

/-- How the outcome of exact decoding is told by that of lenient decoding and by the pieces. -/
structure ExactRefines {α : Type} (fields : List Field) (pieces : List Bytes)
    (lenient exact : Except WireError α) : Prop where
  accepted : ∀ message, exact = .ok message → lenient = .ok message
  kept : ∀ message, lenient = .ok message →
    (exact = .ok message ↔ Layout.AllSound fields pieces)
  refused : ∀ message, lenient = .ok message → ¬ Layout.AllSound fields pieces →
    ∃ index field piece, Layout.FirstUnsound fields pieces index field piece ∧
      exact = .error (.malformedInteger field.name (Utf8.lossy piece))
  beforeFields : ∀ cause : WireError, cause.BeforeFields →
    (lenient = .error cause ↔ exact = .error cause)
  text : ∀ name, lenient = .error (.malformedText name) →
    ∃ index, Layout.FirstRefusal .lenient fields pieces index (.malformedText name) ∧
      (exact = .error (.malformedText name) ∨
        ∃ earlier < index, ∃ field piece, Layout.FirstUnsound fields pieces earlier field piece ∧
          exact = .error (.malformedInteger field.name (Utf8.lossy piece)))

/-! ## One field -/

namespace Value

theorem ofSpan_exact_of_sound {field : Field} {piece : Option Bytes} (sound : field.Sound piece) :
    ofSpan .exact field piece = ofSpan .lenient field piece := by
  unfold ofSpan
  cases kind : field.kind with
  | text => rfl
  | integer =>
    cases piece with
    | none => rfl
    | some bytes =>
      obtain ⟨word, denoted⟩ := sound kind bytes rfl
      have read := (Decimal.readExact?_eq_some_iff bytes word).mpr denoted
      simp only [integerOfSpan, read, Decimal.readLenient_of_readExact? read]

theorem sound_of_ofSpan_exact {field : Field} {piece : Option Bytes} {value : Value}
    (read : ofSpan .exact field piece = .ok value) : field.Sound piece := by
  intro kind bytes there
  rw [← Field.takes_iff, there] at read
  cases read with
  | text content text =>
    rw [kind] at text
    cases text
  | nearest _ _ lenient => cases lenient
  | @exact _ word _ _ denoted => exact ⟨word, denoted⟩

end Value

theorem Field.not_sound_iff {field : Field} {piece : Option Bytes} :
    ¬ field.Sound piece ↔ field.kind = .integer ∧
      ∃ bytes, piece = some bytes ∧ ∀ word : Int32, ¬ Decimal.Denotes bytes word.toInt := by
  simp only [Field.Sound, not_forall, not_exists, exists_prop]

/-! ## All fields -/

namespace Layout

variable {fields : List Field} {pieces : List Bytes}

theorem sound_or_firstUnsound (fields : List Field) (pieces : List Bytes) (bound : Nat) :
    (∀ index < bound, ∀ field, fields[index]? = some field → field.Sound pieces[index]?) ∨
      ∃ index < bound, ∃ field piece, FirstUnsound fields pieces index field piece := by
  induction bound with
  | zero => exact Or.inl fun index before => absurd before (Nat.not_lt_zero index)
  | succ bound ih =>
    rcases ih with sound | ⟨index, before, unsound⟩
    · by_cases here : ∀ field, fields[bound]? = some field → field.Sound pieces[bound]?
      · left
        intro index before
        rcases Nat.lt_succ_iff_lt_or_eq.mp before with earlier | rfl
        · exact sound index earlier
        · exact here
      · right
        simp only [not_forall, Field.not_sound_iff] at here
        obtain ⟨field, field_at, integer, piece, piece_at, unsound⟩ := here
        exact ⟨bound, Nat.lt_succ_self bound, field, piece,
          field_at, integer, piece_at, unsound, sound⟩
    · exact Or.inr ⟨index, Nat.lt_succ_of_lt before, unsound⟩

theorem exists_firstUnsound (unsound : ¬ AllSound fields pieces) :
    ∃ index field piece, FirstUnsound fields pieces index field piece := by
  rcases sound_or_firstUnsound fields pieces fields.length with sound | ⟨index, -, first⟩
  · refine absurd ?_ unsound
    intro index field field_at
    exact sound index (List.getElem?_eq_some_iff.mp field_at).1 field field_at
  · exact ⟨index, first⟩

theorem valuesOf_exact_of_firstUnsound {index : Nat} {field : Field} {piece : Bytes}
    (first : FirstUnsound fields pieces index field piece)
    (taken : ∀ earlier < index, ∀ other, fields[earlier]? = some other →
      ∃ value, Value.ofSpan .lenient other pieces[earlier]? = .ok value) :
    valuesOf .exact fields pieces =
      .error (.malformedInteger field.name (Utf8.lossy piece)) := by
  apply (valuesOf_eq_error_iff fields pieces).mpr
  refine ⟨index, field, first.field_at, ?_, ?_⟩
  · rw [first.piece_at]
    exact Field.ofSpan_of_takes (.malformedInteger first.integer rfl first.unsound)
  · intro earlier before other other_at
    rw [Value.ofSpan_exact_of_sound (first.before earlier before other other_at)]
    exact taken earlier before other other_at

/-- An integer is refused only where it is the first that is not sound. -/
theorem firstUnsound_of_valuesOf {integers : IntegerRule} {name value : String}
    (refused : valuesOf integers fields pieces = .error (.malformedInteger name value)) :
    ∃ index piece, FirstUnsound fields pieces index ⟨name, .integer⟩ piece ∧
      value = Utf8.lossy piece := by
  obtain ⟨index, field, field_at, here, before⟩ := (valuesOf_eq_error_iff fields pieces).mp refused
  obtain ⟨fieldName, fieldKind⟩ := field
  rw [← Field.takes_iff] at here
  generalize piece_at : pieces[index]? = found at here
  cases here with
  | @malformedInteger piece integer exact unsound =>
    obtain rfl : fieldKind = .integer := integer
    refine ⟨index, piece, ⟨field_at, rfl, piece_at, unsound, ?_⟩, rfl⟩
    intro earlier less other other_at
    obtain ⟨value, read⟩ := before earlier less other other_at
    rw [exact] at read
    exact Value.sound_of_ofSpan_exact read

theorem not_beforeFields_of_valuesOf {integers : IntegerRule} {cause : WireError}
    (refused : valuesOf integers fields pieces = .error cause) : ¬ cause.BeforeFields := by
  obtain ⟨field, -, rfl | ⟨span, -, rfl⟩⟩ := refusal_of_valuesOf fields pieces refused
  · nofun
  · nofun

theorem valuesOf_lenient_of_exact {values : List (String × Value)}
    (read : valuesOf .exact fields pieces = .ok values) :
    AllSound fields pieces ∧ valuesOf .lenient fields pieces = .ok values := by
  obtain ⟨length, each⟩ := (valuesOf_eq_ok_iff fields pieces values).mp read
  have sound : AllSound fields pieces := by
    intro index field field_at
    obtain ⟨value, -, own⟩ := each index field field_at
    exact Value.sound_of_ofSpan_exact own
  refine ⟨sound, (valuesOf_eq_ok_iff fields pieces values).mpr ⟨length, ?_⟩⟩
  intro index field field_at
  rw [← Value.ofSpan_exact_of_sound (sound index field field_at)]
  exact each index field field_at

theorem valuesOf_exact_of_allSound {values : List (String × Value)}
    (sound : AllSound fields pieces) (read : valuesOf .lenient fields pieces = .ok values) :
    valuesOf .exact fields pieces = .ok values := by
  obtain ⟨length, each⟩ := (valuesOf_eq_ok_iff fields pieces values).mp read
  refine (valuesOf_eq_ok_iff fields pieces values).mpr ⟨length, ?_⟩
  intro index field field_at
  rw [Value.ofSpan_exact_of_sound (sound index field field_at)]
  exact each index field field_at

theorem valuesOf_exact_of_unsound {values : List (String × Value)}
    (unsound : ¬ AllSound fields pieces) (read : valuesOf .lenient fields pieces = .ok values) :
    ∃ index field piece, FirstUnsound fields pieces index field piece ∧
      valuesOf .exact fields pieces =
        .error (.malformedInteger field.name (Utf8.lossy piece)) := by
  obtain ⟨index, field, piece, first⟩ := exists_firstUnsound unsound
  refine ⟨index, field, piece, first, valuesOf_exact_of_firstUnsound first ?_⟩
  intro earlier before other other_at
  obtain ⟨-, each⟩ := (valuesOf_eq_ok_iff fields pieces values).mp read
  obtain ⟨value, -, own⟩ := each earlier other other_at
  exact ⟨value, own⟩

/-- The text and the first integer that is not sound compete, and the earlier of them is told. -/
theorem valuesOf_exact_of_malformedText {name : String}
    (refused : valuesOf .lenient fields pieces = .error (.malformedText name)) :
    ∃ index, FirstRefusal .lenient fields pieces index (.malformedText name) ∧
      (valuesOf .exact fields pieces = .error (.malformedText name) ∨
        ∃ earlier < index, ∃ field piece, FirstUnsound fields pieces earlier field piece ∧
          valuesOf .exact fields pieces =
            .error (.malformedInteger field.name (Utf8.lossy piece))) := by
  obtain ⟨index, field, field_at, here, before⟩ := (valuesOf_eq_error_iff fields pieces).mp refused
  have own : field.Sound pieces[index]? := by
    intro integer bytes there
    rw [Value.ofSpan, integer, there] at here
    cases here
  refine ⟨index, ?_, ?_⟩
  · simp only [← Field.takes_iff] at here before
    exact ⟨⟨field, field_at, here⟩, before⟩
  · rcases sound_or_firstUnsound fields pieces index with sound |
      ⟨earlier, less, other, piece, first⟩
    · left
      apply (valuesOf_eq_error_iff fields pieces).mpr
      refine ⟨index, field, field_at, ?_, ?_⟩
      · rw [Value.ofSpan_exact_of_sound own]
        exact here
      · intro earlier less other other_at
        rw [Value.ofSpan_exact_of_sound (sound earlier less other other_at)]
        exact before earlier less other other_at
    · right
      refine ⟨earlier, less, other, piece, first, valuesOf_exact_of_firstUnsound first ?_⟩
      intro first above
      exact before first (Nat.lt_trans above less)

theorem exactRefines_valuesOf (fields : List Field) (pieces : List Bytes) :
    ExactRefines fields pieces (valuesOf .lenient fields pieces)
      (valuesOf .exact fields pieces) where
  accepted _ read := (valuesOf_lenient_of_exact read).2
  kept _ read :=
    ⟨fun exact => (valuesOf_lenient_of_exact exact).1,
      fun sound => valuesOf_exact_of_allSound sound read⟩
  refused _ read unsound := valuesOf_exact_of_unsound unsound read
  beforeFields _ before :=
    ⟨fun refused => absurd before (not_beforeFields_of_valuesOf refused),
      fun refused => absurd before (not_beforeFields_of_valuesOf refused)⟩
  text _ refused := valuesOf_exact_of_malformedText refused

end Layout

/-! ## Whole messages -/

namespace ExactRefines

variable {α β : Type} {fields : List Field} {pieces : List Bytes}

theorem of_beforeFields (fields : List Field) (pieces : List Bytes) {cause : WireError}
    (before : cause.BeforeFields) :
    ExactRefines fields pieces (.error cause : Except WireError α) (.error cause) where
  accepted message read := by cases read
  kept message read := by cases read
  refused message read := by cases read
  beforeFields other _ := Iff.rfl
  text name refused := by
    cases refused
    cases before

variable {lenient exact : Except WireError α}

theorem map (change : α → β) (refines : ExactRefines fields pieces lenient exact) :
    ExactRefines fields pieces (change <$> lenient) (change <$> exact) where
  accepted message read := by
    obtain ⟨value, own, rfl⟩ := exists_of_map_eq_ok read
    rw [refines.accepted value own]
    rfl
  kept message read := by
    obtain ⟨value, own, rfl⟩ := exists_of_map_eq_ok read
    rw [← refines.kept value own]
    constructor
    · intro read
      obtain ⟨other, exactly, -⟩ := exists_of_map_eq_ok read
      rw [← own, refines.accepted other exactly]
      exact exactly
    · intro exactly
      rw [exactly]
      rfl
  refused message read unsound := by
    obtain ⟨value, own, -⟩ := exists_of_map_eq_ok read
    simp only [map_eq_error_iff]
    exact refines.refused value own unsound
  beforeFields cause before := by
    rw [map_eq_error_iff, map_eq_error_iff]
    exact refines.beforeFields cause before
  text name read := by
    rw [map_eq_error_iff] at read
    simp only [map_eq_error_iff]
    exact refines.text name read

theorem of_map {change : α → β} (injective : change.Injective)
    (refines : ExactRefines fields pieces (change <$> lenient) (change <$> exact)) :
    ExactRefines fields pieces lenient exact where
  accepted message read := by
    rw [read] at refines
    obtain ⟨value, own, same⟩ := exists_of_map_eq_ok (refines.accepted (change message) rfl)
    rw [own, injective same]
  kept message read := by
    rw [read] at refines
    rw [← refines.kept (change message) rfl]
    constructor
    · intro exactly
      rw [exactly]
      rfl
    · intro exactly
      obtain ⟨value, own, same⟩ := exists_of_map_eq_ok exactly
      rw [own, injective same]
  refused message read unsound := by
    rw [read] at refines
    have refusal := refines.refused (change message) rfl unsound
    simpa only [map_eq_error_iff] using refusal
  beforeFields cause before := by
    have same := refines.beforeFields cause before
    rwa [map_eq_error_iff, map_eq_error_iff] at same
  text name read := by
    have refusal := refines.text name (map_eq_error_iff.mpr read)
    simpa only [map_eq_error_iff] using refusal

end ExactRefines

theorem Layout.exactRefines_decode (layout : Layout) (bytes : Bytes) (room exactRoom : Nat) :
    ExactRefines layout.fields (Wire.pieces bytes).tail
      (layout.decode ⟨room, .lenient⟩ bytes) (layout.decode ⟨exactRoom, .exact⟩ bytes) := by
  simp only [decode_eq, Wire.spans_eq_pieces]
  cases Wire.pieces bytes with
  | nil => exact .of_beforeFields _ _ .noInput
  | cons tag pieces =>
    by_cases own : tag = Utf8.encode layout.name
    · simp only [if_pos own]
      exact (exactRefines_valuesOf layout.fields pieces).map _
    · simp only [if_neg own]
      exact .of_beforeFields _ _ (.typeMismatch _ _)

end PipeCodec
