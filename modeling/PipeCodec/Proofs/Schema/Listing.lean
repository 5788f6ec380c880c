import PipeCodec.Program.Outcome
import PipeCodec.Proofs.Schema.Grammar

/-!
# Listings

A listing has one row for each declaration of a schema.  The names of a schema that was read from a
description are words, so no row holds a line end, the row of a message holds one word and the row
of a field two.  Hence the rows, and from them the declarations and the schema, can be read off the
listing again: what is listed alike is the same.
-/

set_option autoImplicit false

namespace PipeCodec

open Text (Blanks Gap IsWord)

/-! ## The names that a description can give -/

namespace Declaration

theorem Spelled.isWord_message {line : List Char} {name : String}
    (spelled : Spelled line (.message name)) : IsWord name.toList := by
  cases spelled with
  | message front apart word back => exact word

theorem Spelled.isWord_field {line : List Char} {name kind : String}
    (spelled : Spelled line (.field name kind)) : IsWord name.toList := by
  cases spelled with
  | field front apart word apart' kindWord back => exact word

theorem exists_spelled_of_mem {lines : List (List Char)} {declarations : List Declaration}
    (spelled : List.Forall₂ Spelled lines declarations) {declaration : Declaration}
    (member : declaration ∈ declarations) : ∃ line, Spelled line declaration := by
  induction spelled with
  | nil => cases member
  | @cons line first lines declarations own others ih =>
    rcases List.mem_cons.mp member with rfl | among
    · exact ⟨line, own⟩
    · exact ih among

end Declaration

namespace Schema

/-- The names of layouts that a description is written for are words. -/
theorem nameable_of_renders {source : String} {layouts : List Layout}
    (renders : Renders source layouts) : Nameable layouts := by
  obtain ⟨lines, declarations, -, spelled, spells⟩ := renders
  have written : ∀ declaration ∈ layouts.flatMap Layout.declarations,
      ∃ line, Declaration.Spelled line declaration := by
    intro declaration member
    rw [← spells] at member
    exact Declaration.exists_spelled_of_mem spelled (List.mem_of_mem_filter member)
  intro layout among
  refine ⟨?_, ?_⟩
  · obtain ⟨line, own⟩ := written (.message layout.name)
      (Layout.mem_declarations.mpr ⟨layout, among, Or.inl rfl⟩)
    exact own.isWord_message
  · intro field present
    obtain ⟨line, own⟩ := written (.field field.name field.kind.keyword)
      (Layout.mem_declarations.mpr ⟨layout, among, Or.inr ⟨field, present, rfl⟩⟩)
    exact own.isWord_field

theorem nameable_of_parse {source : String} {schema : Schema}
    (parsed : parse source = .ok schema) : Nameable schema.layouts :=
  nameable_of_renders (parse_eq_ok_iff.mp parsed).2

/-! ## Rows -/

def row : Declaration → List Char
  | .message name => name.toList
  | .field name kind => "  ".toList ++ name.toList ++ [' '] ++ kind.toList
  | _ => []

/-- What a row of a listing stands for: one word opens a message, and two are a field. -/
def ofRow (chars : List Char) : Declaration :=
  match (Text.words chars).map String.ofList with
  | [name] => .message name
  | [name, kind] => .field name kind
  | _ => .nothing

theorem words_messageRow {name : String} (word : IsWord name.toList) :
    Text.words (row (.message name)) = [name.toList] := by
  have found := Text.words_word word blanks_nil.bounded
  rw [List.append_nil] at found
  exact found

theorem words_fieldRow {name kind : String} (word : IsWord name.toList)
    (kindWord : IsWord kind.toList) :
    Text.words (row (.field name kind)) = [name.toList, kind.toList] := by
  have front : Blanks "  ".toList := by decide
  have last := Text.words_word kindWord blanks_nil.bounded
  rw [List.append_nil] at last
  simp only [row, List.append_assoc]
  rw [Text.words_blanks front, Text.words_word word (gap_single.bounded_append _),
    Text.words_blanks gap_single.blank, last]
  rfl

/-- A row is a line, and it is read as what it stands for. -/
theorem ofRow_row {layouts : List Layout} (nameable : Nameable layouts) {declaration : Declaration}
    (member : declaration ∈ layouts.flatMap Layout.declarations) :
    ofRow (row declaration) = declaration ∧ Text.Ordinary (row declaration) := by
  obtain ⟨layout, among, spelling⟩ := Layout.mem_declarations.mp member
  obtain ⟨word, fieldWords⟩ := nameable layout among
  rcases spelling with rfl | ⟨field, present, rfl⟩
  · refine ⟨?_, word.ordinary_append List.not_mem_nil⟩
    rw [ofRow, words_messageRow word]
    simp
  · have fieldWord := fieldWords field present
    have kindWord := isWord_keyword field.kind
    have single := fieldWord.notMem_of_isBlank (by decide : Text.isBlank '\n' = true)
    refine ⟨?_, kindWord.ordinary_append (by simp [single])⟩
    rw [ofRow, words_fieldRow fieldWord kindWord]
    simp

theorem toList_listLayout (layout : Layout) :
    (listLayout layout).toList = (layout.declarations.map row).flatMap (· ++ ['\n']) := by
  simp [listLayout, Layout.declarations, row, List.flatMap_map, List.map_map]

theorem toList_listing (schema : Schema) :
    schema.listing.toList =
      ((schema.layouts.flatMap Layout.declarations).map row).flatMap (· ++ ['\n']) := by
  rw [listing, String.toList_join, List.flatMap_map]
  simp only [toList_listLayout, List.map_flatMap, List.flatMap_assoc]

/-! ## Reading a listing -/

def ofListing (text : String) : Schema :=
  ⟨(Declaration.layoutsOf ((Text.lines text.toList).map ofRow)).2⟩

theorem ofListing_listing {schema : Schema} (nameable : Nameable schema.layouts) :
    ofListing schema.listing = schema := by
  have rows : Text.lines schema.listing.toList =
      (schema.layouts.flatMap Layout.declarations).map row := by
    rw [toList_listing]
    apply Text.lines_of_lined
    apply Text.lined_flatMap
    intro line member
    obtain ⟨declaration, among, rfl⟩ := List.mem_map.mp member
    exact (ofRow_row nameable among).2
  have declared : ((schema.layouts.flatMap Layout.declarations).map row).map ofRow =
      schema.layouts.flatMap Layout.declarations := by
    rw [List.map_map]
    refine (List.map_congr_left ?_).trans (List.map_id _)
    intro declaration among
    exact (ofRow_row nameable among).1
  rw [ofListing, rows, declared, Declaration.layoutsOf_declarations]

theorem eq_of_listing {front back : Schema} (nameable : Nameable front.layouts)
    (otherNameable : Nameable back.layouts) (same : front.listing = back.listing) :
    front = back := by
  rw [← ofListing_listing nameable, same, ofListing_listing otherNameable]

/-! ## What the program lists -/

/-- The description that is listed for a path: that of the built-in records if there is none. -/
def ListedFrom (files : Bytes → Except Failure Bytes) : Option Bytes → String → Prop
  | none, source => source = builtinSource
  | some path, source => files path = .ok (Utf8.encode source)

theorem printed_of_listedFrom {files : Bytes → Except Failure Bytes} {path : Option Bytes}
    {source : String} (listed : ListedFrom files path source) {schema : Schema}
    (parsed : parse source = .ok schema) (input : Bytes) :
    ((Request.list path).run files input).printed = Utf8.encode schema.listing := by
  cases path with
  | none =>
    have builtIn : builtin = .ok schema := by
      rw [builtin, ← listed]
      exact parsed
    rw [Request.run, builtIn]
    rfl
  | some path =>
    have contents : files path = .ok (Utf8.encode source) := listed
    have read : ofFile (files path) = .ok schema := by
      simp only [contents, ofFile, Utf8.decode?_encode]
      exact parsed
    rw [Request.run, read]
    rfl

/-- Descriptions whose listings are the same text describe the same schema, whether they come from
files or are built in. -/
theorem equal_listings_list_the_same_schema {first second : String} {front back : Schema}
    (parsedFirst : parse first = .ok front) (parsedSecond : parse second = .ok back) :
    (front.listing = back.listing → front = back) ∧
    ∀ (files otherFiles : Bytes → Except Failure Bytes) (path otherPath : Option Bytes)
        (input otherInput : Bytes), ListedFrom files path first →
      ListedFrom otherFiles otherPath second →
      ((Request.list path).run files input).printed =
        ((Request.list otherPath).run otherFiles otherInput).printed → front = back := by
  have told : front.listing = back.listing → front = back :=
    eq_of_listing (nameable_of_parse parsedFirst) (nameable_of_parse parsedSecond)
  refine ⟨told, ?_⟩
  intro files otherFiles path otherPath input otherInput listed otherListed same
  apply told
  rw [printed_of_listedFrom listed parsedFirst, printed_of_listedFrom otherListed parsedSecond]
    at same
  exact Utf8.encode_injective same

/-- A field is not taken for two messages, one of them named like its kind. -/
theorem field_and_messages_are_listed_apart :
    parse "MESSAGE a\nFIELD b int" = .ok ⟨[⟨"a", [⟨"b", .integer⟩]⟩]⟩ ∧
      parse "MESSAGE a\r\n MESSAGE b\nMESSAGE int\n" = .ok ⟨[⟨"a", []⟩, ⟨"b", []⟩, ⟨"int", []⟩]⟩ ∧
      ((Request.list (some [0x61])).run (fun _ => .ok (Utf8.encode "MESSAGE a\nFIELD b int"))
          []).printed ≠
        ((Request.list (some [0x61])).run
          (fun _ => .ok (Utf8.encode "MESSAGE a\r\n MESSAGE b\nMESSAGE int\n")) []).printed := by
  have first : parse "MESSAGE a\nFIELD b int" = .ok ⟨[⟨"a", [⟨"b", .integer⟩]⟩]⟩ := by
    decide +kernel
  have second : parse "MESSAGE a\r\n MESSAGE b\nMESSAGE int\n" =
      .ok ⟨[⟨"a", []⟩, ⟨"b", []⟩, ⟨"int", []⟩]⟩ := by
    decide +kernel
  have listed : ∀ source, ListedFrom (fun _ => .ok (Utf8.encode source)) (some [0x61]) source :=
    fun source => rfl
  refine ⟨first, second, ?_⟩
  intro same
  have equal := (equal_listings_list_the_same_schema first second).2 _ _ _ _ [] [] (listed _)
    (listed _) same
  exact absurd equal (by decide)

end Schema

end PipeCodec
