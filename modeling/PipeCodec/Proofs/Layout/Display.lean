import PipeCodec.Proofs.Layout.Canonical
import PipeCodec.Proofs.Text.Quoted

/-!
# Messages as they are displayed

A displayed message is its name and its labelled values on one line.  Once the layout is known, so
is the place where each value begins and its kind.  A quoted text has an end of its own, a missing
text has a form that no quoted text has, and a number ends at the blank or comma behind it.  So the
values are told from the line one after the other, and no two messages of one layout look alike.
-/

set_option autoImplicit false

namespace PipeCodec

/-! ## Numbers -/

namespace Decimal

def Numeral (c : Char) : Prop :=
  c.isDigit = true ∨ c = '-'

instance (c : Char) : Decidable (Numeral c) :=
  inferInstanceAs (Decidable (c.isDigit = true ∨ c = '-'))

/-- Text that does not carry on a number before it. -/
def Ends (rest : List Char) : Prop :=
  ∀ c, rest.head? = some c → ¬ Numeral c

theorem numeral_of_mem_render {n : Int32} {c : Char} (member : c ∈ (render n).toList) :
    Numeral c := by
  have digit : ∀ {c : Char}, c ∈ Nat.toDigits 10 n.toInt.natAbs → c.isDigit = true :=
    Nat.isDigit_of_mem_toDigits (by decide) (by decide)
  rw [render, String.toList_ofList, renderChars] at member
  split_ifs at member with negative
  · rcases List.mem_cons.mp member with minus | among
    · exact Or.inr minus
    · exact Or.inl (digit among)
  · exact Or.inl (digit member)

theorem render_injective {m n : Int32} (same : render m = render n) : m = n := by
  have read := readExact?_encode_render m
  rw [same, readExact?_encode_render] at read
  exact (Option.some.inj read).symm

theorem render_append_inj {m n : Int32} {rest other : List Char} (ends : Ends rest)
    (otherEnds : Ends other) (same : (render m).toList ++ rest = (render n).toList ++ other) :
    m = n ∧ rest = other := by
  obtain ⟨numbers, behind⟩ := append_inj_of_runs Numeral (fun _ => numeral_of_mem_render)
    (fun _ => numeral_of_mem_render) ends otherEnds same
  exact ⟨render_injective (String.toList_inj.mp numbers), behind⟩

end Decimal

/-! ## Values -/

namespace Value

theorem display_absent_ne (text : String) (rest other : List Char) :
    (display (.text none)).toList ++ rest ≠ (display (.text (some text))).toList ++ other := by
  intro same
  have first := congrArg List.head? same
  simp [display, quote, Quoted.quoteChars] at first

/-- A value of a known kind and what stands behind it are told from the two together. -/
theorem display_append_inj {value other : Value} {rest more : List Char}
    (sameKind : value.kind = other.kind) (ends : Decimal.Ends rest) (otherEnds : Decimal.Ends more)
    (same : value.display.toList ++ rest = other.display.toList ++ more) :
    value = other ∧ rest = more := by
  cases value with
  | text value =>
    cases other with
    | integer => cases sameKind
    | text other =>
      cases value with
      | none =>
        cases other with
        | none => exact ⟨rfl, List.append_cancel_left same⟩
        | some text => exact absurd same (display_absent_ne text rest more)
      | some text =>
        cases other with
        | none => exact absurd same.symm (display_absent_ne text more rest)
        | some otherText =>
          obtain ⟨texts, behind⟩ := quote_append_inj same
          exact ⟨by rw [texts], behind⟩
  | integer value =>
    cases other with
    | text => cases sameKind
    | integer other =>
      obtain ⟨numbers, behind⟩ := Decimal.render_append_inj ends otherEnds same
      exact ⟨by rw [numbers], behind⟩

theorem oneLine_display (value : Value) : OneLine value.display := by
  cases value with
  | text value =>
    cases value with
    | none => exact (by decide : OneLine "<absent>")
    | some text => exact oneLine_quote text
  | integer value => exact Decimal.oneLine_render value

end Value

namespace LabelledMessage

/-! ## Rows of labelled values -/

def part (lead : String) (entry : String × Value) : List Char :=
  (lead ++ entry.1 ++ ": " ++ entry.2.display).toList

def laterParts (values : List (String × Value)) : List Char :=
  values.flatMap (part ", ") ++ " \x7d".toList

theorem ends_laterParts (values : List (String × Value)) : Decimal.Ends (laterParts values) := by
  intro c first
  cases values with
  | nil =>
    cases first
    decide
  | cons entry values =>
    have comma : (laterParts (entry :: values)).head? = some ',' := by
      simp [laterParts, part]
    rw [comma, Option.some.injEq] at first
    rw [← first]
    decide

theorem part_append_inj {lead : String} {entry other : String × Value} {rest more : List Char}
    (sameField : Field.ofEntry entry = Field.ofEntry other) (ends : Decimal.Ends rest)
    (otherEnds : Decimal.Ends more) (same : part lead entry ++ rest = part lead other ++ more) :
    entry = other ∧ rest = more := by
  obtain ⟨name, value⟩ := entry
  obtain ⟨otherName, otherValue⟩ := other
  simp only [Field.ofEntry, Field.mk.injEq] at sameField
  obtain ⟨rfl, sameKind⟩ := sameField
  simp only [part, String.toList_append, List.append_assoc, List.append_cancel_left_eq] at same
  obtain ⟨values, behind⟩ := Value.display_append_inj sameKind ends otherEnds same
  exact ⟨by rw [values], behind⟩

theorem laterParts_inj (values : List (String × Value)) : ∀ {others : List (String × Value)},
    values.map Field.ofEntry = others.map Field.ofEntry → laterParts values = laterParts others →
      values = others := by
  induction values with
  | nil =>
    intro others sameFields same
    exact (List.map_eq_nil_iff.mp sameFields.symm).symm
  | cons entry values ih =>
    intro others sameFields same
    cases others with
    | nil => cases sameFields
    | cons other others =>
      obtain ⟨own, later⟩ := List.cons.inj sameFields
      simp only [laterParts, List.flatMap_cons, List.append_assoc] at same
      obtain ⟨first, behind⟩ :=
        part_append_inj own (ends_laterParts values) (ends_laterParts others) same
      rw [first, ih later behind]

/-! ## Whole messages -/

theorem toList_display (message : LabelledMessage) :
    message.display.toList = message.name.toList ++ (" \x7b".toList ++
      match message.values with
      | [] => " \x7d".toList
      | first :: later => part " " first ++ laterParts later) := by
  cases values : message.values with
  | nil => simp [display, labelled, parts, values]
  | cons first later =>
    have rest : (String.join ((later.map fun entry => (entry.1, entry.2.display)).map
        fun entry => ", " ++ entry.1 ++ ": " ++ entry.2)).toList = later.flatMap (part ", ") := by
      rw [String.toList_join, List.map_map, List.flatMap_map]
      rfl
    simp only [display, labelled, parts, values, List.map_cons, String.toList_append, rest, part,
      laterParts, List.append_assoc]

/-- Messages of one layout that are displayed alike are the same. -/
theorem eq_of_display {first second : LabelledMessage} (sameLayout : first.layout = second.layout)
    (same : first.display = second.display) : first = second := by
  obtain ⟨name, values⟩ := first
  obtain ⟨otherName, otherValues⟩ := second
  obtain ⟨rfl, sameFields⟩ := Layout.mk.inj sameLayout
  have chars := congrArg String.toList same
  rw [toList_display, toList_display] at chars
  have lines := List.append_cancel_left (List.append_cancel_left chars)
  cases values with
  | nil =>
    have nothing : otherValues = [] := List.map_eq_nil_iff.mp sameFields.symm
    rw [nothing]
  | cons value values =>
    cases otherValues with
    | nil => cases sameFields
    | cons other otherValues =>
      obtain ⟨own, later⟩ := List.cons.inj sameFields
      obtain ⟨heads, behind⟩ :=
        part_append_inj own (ends_laterParts values) (ends_laterParts otherValues) lines
      rw [heads, laterParts_inj values later behind]

theorem oneLine_display {message : LabelledMessage} (named : OneLine message.name)
    (labels : ∀ entry ∈ message.values, OneLine entry.1) : OneLine message.display := by
  apply oneLine_labelled named
  intro entry member
  obtain ⟨original, among, rfl⟩ := List.mem_map.mp member
  exact ⟨labels original among, original.2.oneLine_display⟩

end LabelledMessage

namespace Layout

def Fits (layout : Layout) (message : LabelledMessage) : Prop :=
  message.name = layout.name ∧ firstMismatch? layout.fields message.values = none

instance (layout : Layout) (message : LabelledMessage) : Decidable (layout.Fits message) :=
  inferInstanceAs (Decidable (_ ∧ _))

theorem fits_iff {layout : Layout} {message : LabelledMessage} :
    layout.Fits message ↔ message.layout = layout := by
  obtain ⟨name, fields⟩ := layout
  rw [Fits, firstMismatch?_eq_none_iff, LabelledMessage.layout, Layout.mk.injEq]

theorem fits_of_decode {layout : Layout} {settings : Settings} {bytes : Bytes}
    {message : LabelledMessage} (decoded : layout.decode settings bytes = .ok message) :
    layout.Fits message :=
  fits_iff.mpr (written_of_decode decoded).1.symm

/-- Of the messages that fit a layout, and so of those decoded against it, no two are displayed
alike; in particular a missing text is not displayed like any text.  Where the names hold no line
feed, what is displayed holds none. -/
theorem display_identifies_the_message (layout : Layout) :
    (∀ first second : LabelledMessage, layout.Fits first → layout.Fits second →
      first.display = second.display → first = second) ∧
    (∀ (settings otherSettings : Settings) (bytes otherBytes : Bytes)
        (first second : LabelledMessage), layout.decode settings bytes = .ok first →
      layout.decode otherSettings otherBytes = .ok second →
      first.display = second.display → first = second) ∧
    (∀ text : String, Value.display (.text none) ≠ Value.display (.text (some text))) ∧
    ∀ message : LabelledMessage, OneLine message.name →
      (∀ entry ∈ message.values, OneLine entry.1) → OneLine message.display := by
  have told : ∀ first second : LabelledMessage, layout.Fits first → layout.Fits second →
      first.display = second.display → first = second := by
    intro first second fits otherFits same
    apply LabelledMessage.eq_of_display _ same
    rw [fits_iff.mp fits, fits_iff.mp otherFits]
  refine ⟨told, ?_, ?_, ?_⟩
  · intro settings otherSettings bytes otherBytes first second decoded otherDecoded
    exact told first second (fits_of_decode decoded) (fits_of_decode otherDecoded)
  · intro text same
    apply Value.display_absent_ne text [] []
    rw [same]
  · intro message named labels
    exact LabelledMessage.oneLine_display named labels

/-- Without escapes both messages would be displayed with the same quotes, commas and labels. -/
theorem text_like_a_label_is_displayed_apart :
    Layout.decode ⟨"P", [⟨"a", .text⟩, ⟨"b", .text⟩]⟩ .standard (Utf8.encode "P|x\",\nb: \"y") =
        .ok ⟨"P", [("a", .text (some "x\",\nb: \"y")), ("b", .text none)]⟩ ∧
      Layout.decode ⟨"P", [⟨"a", .text⟩, ⟨"b", .text⟩]⟩ ⟨0, .exact⟩
          (Utf8.encode "P|x|y\", b: <absent>|") =
        .ok ⟨"P", [("a", .text (some "x")), ("b", .text (some "y\", b: <absent>"))]⟩ ∧
      LabelledMessage.display ⟨"P", [("a", .text (some "x\",\nb: \"y")), ("b", .text none)]⟩ ≠
        LabelledMessage.display
          ⟨"P", [("a", .text (some "x")), ("b", .text (some "y\", b: <absent>"))]⟩ ∧
      OneLine (LabelledMessage.display
        ⟨"P", [("a", .text (some "x\",\nb: \"y")), ("b", .text none)]⟩) := by
  have first : Layout.decode ⟨"P", [⟨"a", .text⟩, ⟨"b", .text⟩]⟩ .standard
      (Utf8.encode "P|x\",\nb: \"y") =
        .ok ⟨"P", [("a", .text (some "x\",\nb: \"y")), ("b", .text none)]⟩ := by
    decide +kernel
  have second : Layout.decode ⟨"P", [⟨"a", .text⟩, ⟨"b", .text⟩]⟩ ⟨0, .exact⟩
      (Utf8.encode "P|x|y\", b: <absent>|") =
        .ok ⟨"P", [("a", .text (some "x")), ("b", .text (some "y\", b: <absent>"))]⟩ := by
    decide +kernel
  obtain ⟨-, decoded, -, single⟩ :=
    display_identifies_the_message ⟨"P", [⟨"a", .text⟩, ⟨"b", .text⟩]⟩
  refine ⟨first, second, ?_, single _ (by decide) (by decide)⟩
  intro same
  exact absurd (decoded _ _ _ _ _ _ first second same) (by decide)

end Layout

end PipeCodec
