import PipeCodec.Proofs.Schema.Declaring
import PipeCodec.Proofs.Text.Blank

/-!
# The grammar of descriptions

`Spelled` says how a line that declares something, or nothing, is written, and `Renders` says when a
whole description is written for a row of layouts.  Neither mentions how a description is read.  The
reader accepts exactly these descriptions, and only for layouts whose names it can keep apart; every
such row of layouts has a description.
-/

set_option autoImplicit false

namespace PipeCodec

open Text (Blanks Gap IsWord)

namespace Declaration

inductive Spelled : List Char → Declaration → Prop where
  | blank {line : List Char} (blank : Blanks line) : Spelled line .nothing
  | comment {before : List Char} (front : Blanks before) (text : List Char) :
      Spelled (before ++ '#' :: text) .nothing
  | message {before gap after : List Char} {name : String} (front : Blanks before) (apart : Gap gap)
      (word : IsWord name.toList) (back : Blanks after) :
      Spelled (before ++ "MESSAGE".toList ++ gap ++ name.toList ++ after) (.message name)
  | field {before gap gap' after : List Char} {name kind : String} (front : Blanks before)
      (apart : Gap gap) (word : IsWord name.toList) (apart' : Gap gap')
      (kindWord : IsWord kind.toList) (back : Blanks after) :
      Spelled (before ++ "FIELD".toList ++ gap ++ name.toList ++ gap' ++ kind.toList ++ after)
        (.field name kind)

theorem isWord_messageKeyword : IsWord "MESSAGE".toList := by decide

theorem isWord_fieldKeyword : IsWord "FIELD".toList := by decide

theorem ofLine_of_blanks {line : List Char} (blank : Blanks line) : ofLine line = .nothing := by
  rw [ofLine, Text.trim_eq_nil_iff.mpr blank]

theorem ofLine_of_head? {line : List Char} {c : Char} (first : (Text.trim line).head? = some c) :
    ofLine line = if c = '#' then .nothing
      else ofWords (Text.trim line) ((Text.words line).map String.ofList) := by
  rw [← Text.words_trim, ofLine]
  cases trimmed : Text.trim line with
  | nil => simp [trimmed] at first
  | cons d rest =>
    rw [trimmed, List.head?_cons, Option.some.injEq] at first
    rw [first]

theorem ofLine_eq_of_spelled {line : List Char} {declaration : Declaration}
    (spelled : Spelled line declaration) : ofLine line = declaration := by
  cases spelled with
  | blank blank => exact ofLine_of_blanks blank
  | comment front text =>
    rw [ofLine_of_head? (Text.head?_trim front (by decide) text), if_pos rfl]
  | @message before gap after name front apart word back =>
    have first : (Text.trim (before ++ "MESSAGE".toList ++ gap ++ name.toList ++ after)).head? =
        some 'M' := by
      simpa using Text.head?_trim front (by decide : Text.isBlank 'M' = false) _
    have found : Text.words (before ++ "MESSAGE".toList ++ gap ++ name.toList ++ after) =
        ["MESSAGE".toList, name.toList] := by
      simp only [List.append_assoc]
      rw [Text.words_blanks front, Text.words_word isWord_messageKeyword (apart.bounded_append _),
        Text.words_blanks apart.blank, Text.words_word word back.bounded,
        Text.words_of_blanks back]
    rw [ofLine_of_head? first, if_neg (by decide), found]
    simp [ofWords]
  | @field before gap gap' after name kind front apart word apart' kindWord back =>
    have first : (Text.trim (before ++ "FIELD".toList ++ gap ++ name.toList ++ gap' ++
        kind.toList ++ after)).head? = some 'F' := by
      simpa using Text.head?_trim front (by decide : Text.isBlank 'F' = false) _
    have found : Text.words (before ++ "FIELD".toList ++ gap ++ name.toList ++ gap' ++
        kind.toList ++ after) = ["FIELD".toList, name.toList, kind.toList] := by
      simp only [List.append_assoc]
      rw [Text.words_blanks front, Text.words_word isWord_fieldKeyword (apart.bounded_append _),
        Text.words_blanks apart.blank, Text.words_word word (apart'.bounded_append _),
        Text.words_blanks apart'.blank, Text.words_word kindWord back.bounded,
        Text.words_of_blanks back]
    rw [ofLine_of_head? first, if_neg (by decide), found]
    simp [ofWords]

theorem spelled_message {line : List Char} {name : String}
    (found : Text.words line = ["MESSAGE".toList, name.toList]) : Spelled line (.message name) := by
  obtain ⟨before, rest, rfl, front, -, bounded, behind⟩ := Text.words_eq_cons found
  obtain ⟨gap, after, rfl, apart, word, -, none⟩ := Text.words_eq_cons_of_bounded behind bounded
  have spelled := Spelled.message front apart word (Text.blanks_of_words_eq_nil none)
  simpa only [List.append_assoc] using spelled

theorem spelled_field {line : List Char} {name kind : String}
    (found : Text.words line = ["FIELD".toList, name.toList, kind.toList]) :
    Spelled line (.field name kind) := by
  obtain ⟨before, rest, rfl, front, -, bounded, behind⟩ := Text.words_eq_cons found
  obtain ⟨gap, rest', rfl, apart, word, bounded', behind'⟩ :=
    Text.words_eq_cons_of_bounded behind bounded
  obtain ⟨gap', after, rfl, apart', kindWord, -, none⟩ :=
    Text.words_eq_cons_of_bounded behind' bounded'
  have spelled :=
    Spelled.field front apart word apart' kindWord (Text.blanks_of_words_eq_nil none)
  simpa only [List.append_assoc] using spelled

theorem words_of_map_ofList {words : List (List Char)} {texts : List String}
    (same : words.map String.ofList = texts) : words = texts.map String.toList := by
  rw [← same, List.map_map]
  simp [Function.comp_def]

theorem spelled_ofLine {line : List Char} (accepted : ∀ content, ofLine line ≠ .other content) :
    Spelled line (ofLine line) := by
  cases trimmed : Text.trim line with
  | nil =>
    have blank := Text.trim_eq_nil_iff.mp trimmed
    rw [ofLine_of_blanks blank]
    exact Spelled.blank blank
  | cons c rest =>
    have first : (Text.trim line).head? = some c := by rw [trimmed, List.head?_cons]
    rw [ofLine_of_head? first] at accepted ⊢
    split_ifs at accepted ⊢ with hash
    · obtain ⟨before, after, whole, front, -⟩ := Text.exists_trim line
      rw [trimmed, hash] at whole
      rw [whole, List.append_assoc]
      exact Spelled.comment front (rest ++ after)
    · generalize texts : (Text.words line).map String.ofList = parts at accepted ⊢
      unfold ofWords at accepted ⊢
      split at accepted
      · exact spelled_message (words_of_map_ofList texts)
      · exact spelled_field (words_of_map_ofList texts)
      · exact absurd rfl (accepted _)

theorem Declares.ne_other {known next : List Layout} {declaration : Declaration}
    (declares : Declares known declaration next) (content : String) :
    declaration ≠ .other content := by
  rintro rfl
  cases declares

theorem DeclaresAll.ne_other {known final : List Layout} {declarations : List Declaration}
    (run : DeclaresAll known declarations final) :
    ∀ declaration ∈ declarations, ∀ content, declaration ≠ .other content := by
  induction run with
  | nil known => simp
  | cons step run ih => exact List.forall_mem_cons.mpr ⟨step.ne_other, ih⟩

/-- Lines are spelled by no other declarations than those they are read as. -/
theorem eq_map_ofLine_of_spelled {lines : List (List Char)} {declarations : List Declaration}
    (spelled : List.Forall₂ Spelled lines declarations) : declarations = lines.map ofLine := by
  induction spelled with
  | nil => rfl
  | cons first rest ih => rw [List.map_cons, ofLine_eq_of_spelled first, ih]

theorem forall₂_spelled_ofLine {lines : List (List Char)}
    (accepted : ∀ declaration ∈ lines.map ofLine, ∀ content, declaration ≠ .other content) :
    List.Forall₂ Spelled lines (lines.map ofLine) := by
  rw [List.forall₂_map_right_iff, List.forall₂_same]
  intro line member
  exact spelled_ofLine (accepted _ (List.mem_map_of_mem member))

end Declaration

namespace Schema

/-- The text is written for these layouts: line by line it says nothing or spells the next of their
declarations. -/
def Renders (source : String) (layouts : List Layout) : Prop :=
  ∃ lines declarations, Text.Lined source.toList lines ∧
    List.Forall₂ Declaration.Spelled lines declarations ∧
    declarations.filter (· ≠ .nothing) = layouts.flatMap Layout.declarations

theorem renders_of_declaresAll {source : String} {layouts : List Layout}
    (run : Declaration.DeclaresAll [] ((Text.lines source.toList).map Declaration.ofLine)
      layouts.reverse) : Renders source layouts := by
  refine ⟨Text.lines source.toList, _, Text.lines_eq_iff.mp rfl,
    Declaration.forall₂_spelled_ofLine run.ne_other, ?_⟩
  have spells := (Declaration.declaresAll_iff.mp run).2
  rw [Declaration.said, List.reverse_reverse] at spells
  exact spells.symm

theorem declaresAll_of_renders {source : String} {layouts : List Layout} (named : WellNamed layouts)
    (renders : Renders source layouts) :
    Declaration.DeclaresAll [] ((Text.lines source.toList).map Declaration.ofLine)
      layouts.reverse := by
  obtain ⟨lines, declarations, lined, spelled, spells⟩ := renders
  rw [Text.lines_eq_iff.mpr lined, ← Declaration.eq_map_ofLine_of_spelled spelled]
  refine Declaration.declaresAll_iff.mpr ⟨named.reverse, ?_⟩
  rw [Declaration.said, List.reverse_reverse]
  exact spells.symm

theorem parse_eq_ok_iff {source : String} {layouts : List Layout} :
    parse source = .ok ⟨layouts⟩ ↔ WellNamed layouts ∧ Renders source layouts := by
  constructor
  · intro parsed
    have run := parse_eq_ok_iff_declaresAll.mp parsed
    exact ⟨wellNamed_of_parse parsed, renders_of_declaresAll run⟩
  · rintro ⟨named, renders⟩
    exact parse_eq_ok_iff_declaresAll.mpr (declaresAll_of_renders named renders)

/-! ## A description for every row of layouts -/

def Nameable (layouts : List Layout) : Prop :=
  ∀ layout ∈ layouts, IsWord layout.name.toList ∧
    ∀ field ∈ layout.fields, IsWord field.name.toList

instance (layouts : List Layout) : Decidable (Nameable layouts) :=
  inferInstanceAs (Decidable (∀ layout ∈ layouts, IsWord layout.name.toList ∧
    ∀ field ∈ layout.fields, IsWord field.name.toList))

def written : Declaration → List Char
  | .message name => "MESSAGE".toList ++ [' '] ++ name.toList
  | .field name kind => "FIELD".toList ++ [' '] ++ name.toList ++ [' '] ++ kind.toList
  | _ => []

theorem blanks_nil : Blanks [] := by decide

theorem gap_single : Gap [' '] := by decide

theorem isWord_keyword (kind : FieldKind) : IsWord kind.keyword.toList := by
  cases kind <;> decide

theorem spelled_written {layouts : List Layout} (nameable : Nameable layouts)
    {declaration : Declaration} (member : declaration ∈ layouts.flatMap Layout.declarations) :
    Declaration.Spelled (written declaration) declaration ∧
      Text.Ordinary (written declaration) := by
  obtain ⟨layout, among, spelling⟩ := Layout.mem_declarations.mp member
  obtain ⟨word, fieldWords⟩ := nameable layout among
  rcases spelling with rfl | ⟨field, present, rfl⟩
  · have spelled := Declaration.Spelled.message blanks_nil gap_single word blanks_nil
    rw [List.nil_append, List.append_nil] at spelled
    exact ⟨spelled, word.ordinary_append (by decide)⟩
  · have fieldWord := fieldWords field present
    have kindWord := isWord_keyword field.kind
    have spelled := Declaration.Spelled.field blanks_nil gap_single fieldWord gap_single kindWord
      blanks_nil
    rw [List.nil_append, List.append_nil] at spelled
    have single := fieldWord.notMem_of_isBlank (by decide : Text.isBlank '\n' = true)
    exact ⟨spelled, kindWord.ordinary_append (by simp [single])⟩

theorem renders_written {layouts : List Layout} (nameable : Nameable layouts) :
    Renders (String.ofList
      (((layouts.flatMap Layout.declarations).map written).flatMap (· ++ ['\n']))) layouts := by
  refine ⟨(layouts.flatMap Layout.declarations).map written, layouts.flatMap Layout.declarations,
    ?_, ?_, ?_⟩
  · rw [String.toList_ofList]
    apply Text.lined_flatMap
    intro line member
    obtain ⟨declaration, among, rfl⟩ := List.mem_map.mp member
    exact (spelled_written nameable among).2
  · rw [List.forall₂_map_left_iff, List.forall₂_same]
    intro declaration member
    exact (spelled_written nameable member).1
  · rw [List.filter_eq_self]
    intro declaration member
    obtain ⟨layout, -, rfl | ⟨field, -, rfl⟩⟩ := Layout.mem_declarations.mp member
    · simp
    · simp

/-- A description is accepted for exactly those layouts that it is written for and whose names can
be kept apart, and all layouts with usable names have one. -/
theorem parsing_accepts_exactly_the_grammar :
    (∀ (source : String) (layouts : List Layout),
      parse source = .ok ⟨layouts⟩ ↔ WellNamed layouts ∧ Renders source layouts) ∧
    ∀ layouts : List Layout, WellNamed layouts → Nameable layouts →
      ∃ source, parse source = .ok ⟨layouts⟩ := by
  refine ⟨fun source layouts => parse_eq_ok_iff, ?_⟩
  intro layouts named nameable
  exact ⟨_, parse_eq_ok_iff.mpr ⟨named, renders_written nameable⟩⟩

theorem layouts_named_like_keywords_have_a_description :
    WellNamed [⟨"#", [⟨"MESSAGE", .integer⟩, ⟨"MESSAGE", .text⟩]⟩, ⟨"FIELD", []⟩] ∧
      Nameable [⟨"#", [⟨"MESSAGE", .integer⟩, ⟨"MESSAGE", .text⟩]⟩, ⟨"FIELD", []⟩] ∧
      ∃ source, parse source =
        .ok ⟨[⟨"#", [⟨"MESSAGE", .integer⟩, ⟨"MESSAGE", .text⟩]⟩, ⟨"FIELD", []⟩]⟩ := by
  have named : WellNamed [⟨"#", [⟨"MESSAGE", .integer⟩, ⟨"MESSAGE", .text⟩]⟩, ⟨"FIELD", []⟩] := by
    decide
  have nameable : Nameable [⟨"#", [⟨"MESSAGE", .integer⟩, ⟨"MESSAGE", .text⟩]⟩, ⟨"FIELD", []⟩] := by
    decide
  exact ⟨named, nameable, parsing_accepts_exactly_the_grammar.2 _ named nameable⟩

end Schema

end PipeCodec
