import PipeCodec.Proofs.Schema.Grammar

/-!
# Where a description is refused

A description is refused at one line.  The lines before it are a description of their own, and what
is wrong with the line is told by its spelling and by the layouts that the lines before it declare.
The cause carries the number of the line, for which every line feed before it counts, and nothing
behind the line has a part in it.
-/

set_option autoImplicit false

namespace PipeCodec

namespace Declaration

inductive Refused (schema : Schema) (number : Nat) (line : List Char) : SchemaError → Prop where
  | barredMessage {name : String} : Spelled line (.message name) → '|' ∈ name.toList →
      Refused schema number line (.invalidName number name)
  | repeatedMessage {name : String} : Spelled line (.message name) →
      name ∈ schema.layouts.map (·.name) → Refused schema number line (.duplicateMessage name)
  | orphan {name kind : String} : Spelled line (.field name kind) → schema.layouts = [] →
      Refused schema number line (.orphanField number)
  | unknownKind {name kind : String} : Spelled line (.field name kind) → schema.layouts ≠ [] →
      kind ≠ "string" → kind ≠ "int" → Refused schema number line (.unknownKind number kind)
  | barredField {name kind : String} : Spelled line (.field name kind) → schema.layouts ≠ [] →
      kind = "string" ∨ kind = "int" → '|' ∈ name.toList →
      Refused schema number line (.invalidName number name)
  | malformed {content : String} : (∀ declaration, ¬ Spelled line declaration) →
      Text.Trimmed line content.toList → Refused schema number line (.malformed number content)

/-! ## One line -/

theorem Spelled.ne_other {line : List Char} {declaration : Declaration}
    (spelled : Spelled line declaration) (content : String) : declaration ≠ .other content := by
  rintro rfl
  cases spelled

theorem ofWords_eq_other {content : List Char} {words : List String} {told : String}
    (other : ofWords content words = .other told) : told = String.ofList content := by
  unfold ofWords at other
  split at other
  · cases other
  · cases other
  · cases other
    rfl

theorem ofLine_eq_other {line : List Char} {content : String}
    (other : ofLine line = .other content) : content.toList = Text.trim line := by
  unfold ofLine at other
  split at other
  · cases other
  · next c rest trimmed =>
    split_ifs at other
    rw [ofWords_eq_other other, String.toList_ofList, trimmed]

theorem refused_of_declare {schema : Schema} {number : Nat} {line : List Char}
    {cause : SchemaError}
    (refused : declare number schema.layouts.reverse (ofLine line) = .error cause) :
    Refused schema number line cause := by
  cases read : ofLine line with
  | nothing =>
    rw [read] at refused
    cases refused
  | message name =>
    have spelled : Spelled line (.message name) := read ▸ spelled_ofLine (by simp [read])
    rw [read] at refused
    simp only [declare, Wire.delimiter_mem_encode_iff] at refused
    split_ifs at refused with barred used
    · cases refused
      exact .barredMessage spelled barred
    · cases refused
      exact .repeatedMessage spelled (by simpa using used)
  | field name word =>
    have spelled : Spelled line (.field name word) := read ▸ spelled_ofLine (by simp [read])
    rw [read] at refused
    cases known : schema.layouts.reverse with
    | nil =>
      rw [known] at refused
      cases refused
      exact .orphan spelled (List.reverse_eq_nil_iff.mp known)
    | cons latest earlier =>
      have someLayout : schema.layouts ≠ [] := by
        intro none
        simp [none] at known
      simp only [known, declare, Wire.delimiter_mem_encode_iff] at refused
      cases kind : FieldKind.ofKeyword? word with
      | none =>
        rw [kind] at refused
        cases refused
        obtain ⟨noText, noInteger⟩ := FieldKind.ofKeyword?_eq_none_iff.mp kind
        exact .unknownKind spelled someLayout noText noInteger
      | some found =>
        simp only [kind] at refused
        split_ifs at refused with barred
        cases refused
        have keyword := FieldKind.exists_ofKeyword?_iff.mp ⟨found, kind⟩
        exact .barredField spelled someLayout keyword barred
  | other content =>
    rw [read] at refused
    cases refused
    refine .malformed ?_ (Text.trimmed_iff.mpr (ofLine_eq_other read))
    intro declaration spelled
    exact spelled.ne_other content ((ofLine_eq_of_spelled spelled).symm.trans read)

theorem declare_of_refused {schema : Schema} (named : WellNamed schema.layouts) {number : Nat}
    {line : List Char} {cause : SchemaError} (refused : Refused schema number line cause) :
    declare number schema.layouts.reverse (ofLine line) = .error cause := by
  cases refused with
  | barredMessage spelled barred =>
    rw [ofLine_eq_of_spelled spelled]
    simp only [declare, Wire.delimiter_mem_encode_iff, if_pos barred]
  | @repeatedMessage name spelled used =>
    -- A name in use was accepted before, so the check for the delimiter does not stop it.
    obtain ⟨layout, member, same⟩ := List.mem_map.mp used
    have plain : '|' ∉ name.toList := by
      rw [← same]
      exact (named.plain layout member).1
    rw [ofLine_eq_of_spelled spelled]
    simp only [declare, Wire.delimiter_mem_encode_iff, if_neg plain]
    rw [if_pos (by simpa using used)]
  | orphan spelled none =>
    rw [ofLine_eq_of_spelled spelled, none]
    rfl
  | @unknownKind name kind spelled someLayout noText noInteger =>
    obtain ⟨latest, earlier, known⟩ :=
      List.exists_cons_of_ne_nil (mt List.reverse_eq_nil_iff.mp someLayout)
    have unknown := FieldKind.ofKeyword?_eq_none_iff.mpr ⟨noText, noInteger⟩
    rw [ofLine_eq_of_spelled spelled, known]
    simp only [declare, unknown]
  | @barredField name kind spelled someLayout keyword barred =>
    obtain ⟨latest, earlier, known⟩ :=
      List.exists_cons_of_ne_nil (mt List.reverse_eq_nil_iff.mp someLayout)
    obtain ⟨found, read⟩ := FieldKind.exists_ofKeyword?_iff.mpr keyword
    rw [ofLine_eq_of_spelled spelled, known]
    simp only [declare, read, Wire.delimiter_mem_encode_iff, if_pos barred]
  | @malformed content unspelled trimmed =>
    have read : ∃ told, ofLine line = .other told := by
      by_contra accepted
      exact unspelled _ (spelled_ofLine (not_exists.mp accepted))
    obtain ⟨told, read⟩ := read
    have same : told = content := by
      rw [← String.toList_inj, ofLine_eq_other read, Text.trimmed_iff.mp trimmed]
    rw [read, same]
    rfl

/-! ## The first line that is refused -/

theorem exists_refused_of_declareAll {cause : SchemaError} (lines : List (List Char)) :
    ∀ (number : Nat) (known : List Layout), declareAll number known lines = .error cause →
      ∃ before text after reached, lines = before ++ text :: after ∧
        declareAll number known before = .ok reached ∧
          declare (number + before.length) reached (ofLine text) = .error cause := by
  induction lines with
  | nil => intro number known fails; cases fails
  | cons first rest ih =>
    intro number known fails
    rcases bind_eq_error fails with here | ⟨next, accepted, later⟩
    · exact ⟨[], first, rest, known, rfl, rfl, here⟩
    · obtain ⟨before, text, after, reached, rfl, run, refused⟩ := ih (number + 1) next later
      refine ⟨first :: before, text, after, reached, rfl, ?_, ?_⟩
      · rw [declareAll, accepted]
        exact run
      · rw [List.length_cons, Nat.add_comm before.length 1, ← Nat.add_assoc]
        exact refused

end Declaration

/-- The line begins behind the front of the text, which ends where a line does. -/
def Text.LineBehind (front line source : List Char) : Prop :=
  Closed front ∧ ∃ rest after, source = front ++ rest ∧ Lined rest (line :: after)

namespace Schema

def FaultBehind (front : String) (line : List Char) (source : String) (cause : SchemaError) :
    Prop :=
  Text.LineBehind front.toList line source.toList ∧
    ∃ schema, parse front = .ok schema ∧
      Declaration.Refused schema (front.toList.count '\n' + 1) line cause

theorem exists_fault_of_parse {source : String} {cause : SchemaError}
    (fails : parse source = .error cause) : ∃ front line, FaultBehind front line source cause := by
  obtain ⟨before, line, after, reached, rows, run, refused⟩ :=
    Declaration.exists_refused_of_declareAll _ _ _ (parse_eq_error_iff_declareAll.mp fails)
  obtain ⟨front, rest, split, closed, fronted, lined⟩ :=
    Text.exists_front_of_lined before (Text.lines_eq_iff.mp rows)
  have frontLines : Text.lines (String.ofList front).toList = before := by
    rw [String.toList_ofList]
    exact Text.lines_eq_iff.mpr fronted
  -- Every line of the front has its line feed, so these count the lines.
  have number : 1 + before.length = front.count '\n' + 1 := by
    rw [← Text.length_lines closed, Text.lines_eq_iff.mpr fronted, Nat.add_comm]
  refine ⟨String.ofList front, line, ?_, ⟨reached.reverse⟩, ?_, ?_⟩
  · rw [String.toList_ofList]
    exact ⟨closed, rest, after, split, lined⟩
  · rw [parse_eq_ok_iff_declareAll, frontLines, List.reverse_reverse]
    exact run
  · apply Declaration.refused_of_declare
    rw [List.reverse_reverse, String.toList_ofList, ← number]
    exact refused

theorem parse_of_fault {front source : String} {line : List Char} {cause : SchemaError}
    (fault : FaultBehind front line source cause) : parse source = .error cause := by
  obtain ⟨⟨closed, rest, after, split, lined⟩, schema, parsed, refused⟩ := fault
  have run := parse_eq_ok_iff_declareAll.mp parsed
  have stops := Declaration.declare_of_refused (wellNamed_of_parse parsed) refused
  rw [parse_eq_error_iff_declareAll, split, Text.lines_append closed,
    Text.lines_eq_iff.mpr lined, Declaration.declareAll_append, run, Text.length_lines closed,
    Nat.add_comm 1]
  simp only [bind, Except.bind, Declaration.declareAll, stops]

/-- A description is refused exactly if the line behind some front of it is at fault, and then for
what is wrong with that line; whatever else may stand behind the line, the cause is the same. -/
theorem parsing_fails_at_the_first_line_at_fault (source : String) :
    (∀ cause, parse source = .error cause ↔ ∃ front line, FaultBehind front line source cause) ∧
    ∀ (front : String) (line : List Char) (cause : SchemaError),
      FaultBehind front line source cause →
        ∀ other : String, Text.LineBehind front.toList line other.toList →
          parse other = .error cause := by
  refine ⟨?_, ?_⟩
  · intro cause
    constructor
    · exact exists_fault_of_parse
    · rintro ⟨front, line, fault⟩
      exact parse_of_fault fault
  · rintro front line cause ⟨-, refused⟩ other behind
    exact parse_of_fault ⟨behind, refused⟩

/-- The fourth line has an unknown kind as well as a barred name, and a comment and an empty line
before it; a message with a barred name behind it is not reached. -/
theorem unknown_kind_is_told_before_what_follows :
    parse "# one\r\n\r\nMESSAGE A\r\n FIELD x|y float\r\nMESSAGE A|B" =
        .error (.unknownKind 4 "float") ∧
      parse "# one\r\n\r\nMESSAGE A\r\n FIELD x|y float" = .error (.unknownKind 4 "float") := by
  have closed : Text.Closed "# one\r\n\r\nMESSAGE A\r\n".toList := by decide +kernel
  have spelled : Declaration.Spelled " FIELD x|y float".toList (.field "x|y" "float") :=
    Declaration.spelled_field (by decide +kernel)
  have parsed : parse "# one\r\n\r\nMESSAGE A\r\n" = .ok ⟨[⟨"A", []⟩]⟩ := by decide +kernel
  have refused : Declaration.Refused ⟨[⟨"A", []⟩]⟩
      ("# one\r\n\r\nMESSAGE A\r\n".toList.count '\n' + 1) " FIELD x|y float".toList
      (.unknownKind 4 "float") :=
    .unknownKind spelled (by simp) (by decide) (by decide)
  have followed : Text.LineBehind "# one\r\n\r\nMESSAGE A\r\n".toList " FIELD x|y float".toList
      "# one\r\n\r\nMESSAGE A\r\n FIELD x|y float\r\nMESSAGE A|B".toList :=
    ⟨closed, " FIELD x|y float\r\nMESSAGE A|B".toList, ["MESSAGE A|B".toList], by decide +kernel,
      Text.lines_eq_iff.mp (by decide +kernel)⟩
  have alone : Text.LineBehind "# one\r\n\r\nMESSAGE A\r\n".toList " FIELD x|y float".toList
      "# one\r\n\r\nMESSAGE A\r\n FIELD x|y float".toList :=
    ⟨closed, " FIELD x|y float".toList, [], by decide +kernel,
      Text.lines_eq_iff.mp (by decide +kernel)⟩
  obtain ⟨told, same⟩ := parsing_fails_at_the_first_line_at_fault
    "# one\r\n\r\nMESSAGE A\r\n FIELD x|y float\r\nMESSAGE A|B"
  have fault : FaultBehind "# one\r\n\r\nMESSAGE A\r\n" " FIELD x|y float".toList
      "# one\r\n\r\nMESSAGE A\r\n FIELD x|y float\r\nMESSAGE A|B" (.unknownKind 4 "float") :=
    ⟨followed, _, parsed, refused⟩
  exact ⟨(told _).mpr ⟨_, _, fault⟩, same _ _ _ fault _ alone⟩

end Schema

end PipeCodec
