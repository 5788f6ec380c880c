import PipeCodec.Proofs.Schema.Lookup
import PipeCodec.Proofs.Text.Blank

/-!
# Descriptions in a row

A description whose lines all have their end can be followed by another one.  What the first says is
settled before the second begins, and the second is read as if it stood alone, except that it may
not open a message under a name of the first.  The layouts of the two then stand in a row, and a
message goes to the first of them that knows its tag.
-/

set_option autoImplicit false

namespace PipeCodec

namespace Declaration

/-! ## Lines behind others -/

/-- A line does to the layouts known so far what it does where others are known before them, unless
it opens a message under the name of one of those. -/
theorem Declares.behind {known next earlier : List Layout} {declaration : Declaration}
    (declares : Declares known declaration next)
    (fresh : ∀ name, messageName? declaration = some name → name ∉ earlier.map (·.name)) :
    Declares (known ++ earlier) declaration (next ++ earlier) := by
  cases declares with
  | nothing => exact .nothing _
  | message plain unused =>
    refine .message plain ?_
    rw [List.map_append, List.mem_append, not_or]
    exact ⟨unused, fresh _ rfl⟩
  | field plain => exact .field plain

theorem declare_of_shared {known next earlier : List Layout} {declaration : Declaration}
    {name : String} (declares : Declares known declaration next)
    (opens : messageName? declaration = some name) (used : name ∈ earlier.map (·.name))
    (line : Nat) :
    declare line (known ++ earlier) declaration = .error (.duplicateMessage name) := by
  cases declares with
  | nothing => cases opens
  | message plain unused =>
    cases opens
    have among : name ∈ (known ++ earlier).map (·.name) := by
      rw [List.map_append]
      exact List.mem_append_right _ used
    simp only [declare, Wire.delimiter_mem_encode_iff, if_neg plain]
    rw [if_pos (by simpa using among)]
  | field plain => cases opens

/-- The names under which lines open a message, in order. -/
def opened (lines : List (List Char)) : List String :=
  (lines.map ofLine).filterMap messageName?

theorem opened_cons_of_none {text : List Char} (silent : messageName? (ofLine text) = none)
    (rest : List (List Char)) : opened (text :: rest) = opened rest := by
  rw [opened, List.map_cons, List.filterMap_cons_none silent]
  rfl

theorem opened_cons_of_some {text : List Char} {name : String}
    (opens : messageName? (ofLine text) = some name) (rest : List (List Char)) :
    opened (text :: rest) = name :: opened rest := by
  rw [opened, List.map_cons, List.filterMap_cons_some opens]
  rfl

/-- Lines that are accepted alone are accepted behind other layouts up to the first name that those
have in common with them. -/
theorem declareAll_behind (earlier : List Layout) (lines : List (List Char)) :
    ∀ {known final : List Layout} {other : Nat}, declareAll other known lines = .ok final →
      ∀ line : Nat, declareAll line (known ++ earlier) lines =
        match (opened lines).find? (· ∈ earlier.map (·.name)) with
        | none => .ok (final ++ earlier)
        | some name => .error (.duplicateMessage name) := by
  induction lines with
  | nil =>
    intro known final other accepted line
    cases accepted
    rfl
  | cons text rest ih =>
    intro known final other accepted line
    obtain ⟨next, first, further⟩ := exists_of_bind_eq_ok accepted
    have step := declares_of_declare first
    cases opens : messageName? (ofLine text) with
    | none =>
      have behind : Declares (known ++ earlier) (ofLine text) (next ++ earlier) :=
        step.behind (by simp [opens])
      rw [declareAll, declare_of_declares behind, opened_cons_of_none opens]
      exact ih further (line + 1)
    | some name =>
      rw [declareAll, opened_cons_of_some opens]
      -- Alone the line is accepted, so only the name of an earlier layout can stop it.
      by_cases used : name ∈ earlier.map (·.name)
      · rw [declare_of_shared step opens used, List.find?_cons_of_pos (by simpa using used)]
        rfl
      · have fresh : ∀ own, messageName? (ofLine text) = some own → own ∉ earlier.map (·.name) := by
          intro own same
          rw [opens, Option.some.injEq] at same
          rwa [← same]
        rw [declare_of_declares (step.behind fresh), List.find?_cons_of_neg (by simpa using used)]
        exact ih further (line + 1)

end Declaration

namespace Schema

/-! ## Descriptions behind others -/

def join (front back : Schema) : Schema :=
  ⟨front.layouts ++ back.layouts⟩

theorem opened_of_parse {source : String} {schema : Schema} (parsed : parse source = .ok schema) :
    Declaration.opened (Text.lines source.toList) = schema.layouts.map (·.name) := by
  have run := parse_eq_ok_iff_declaresAll.mp parsed
  have names := Declaration.filterMap_messageName?_said schema.layouts.reverse
  rw [(Declaration.declaresAll_iff.mp run).2, List.map_reverse, List.reverse_reverse,
    Declaration.spoken, List.filterMap_filter] at names
  rw [← names, Declaration.opened]
  apply List.filterMap_congr
  intro declaration member
  cases declaration <;> rfl

theorem lines_join {first : String} (closed : Text.Closed first.toList) (second : String) :
    Text.lines (first ++ second).toList =
      Text.lines first.toList ++ Text.lines second.toList := by
  rw [String.toList_append, Text.lines_append closed]

theorem parse_append_of_error {first : String} (closed : Text.Closed first.toList)
    (second : String) {cause : SchemaError} (fails : parse first = .error cause) :
    parse (first ++ second) = .error cause := by
  rw [parse_eq_error_iff_declareAll] at fails ⊢
  rw [lines_join closed, Declaration.declareAll_append, fails]
  rfl

theorem declareAll_join {first second : String} (closed : Text.Closed first.toList)
    {front back : Schema} (parsedFirst : parse first = .ok front)
    (parsedSecond : parse second = .ok back) :
    Declaration.declareAll 1 [] (Text.lines (first ++ second).toList) =
      match (back.layouts.map (·.name)).find? (· ∈ front.layouts.map (·.name)) with
      | none => .ok (front.join back).layouts.reverse
      | some name => .error (.duplicateMessage name) := by
  have run := parse_eq_ok_iff_declareAll.mp parsedFirst
  have alone := parse_eq_ok_iff_declareAll.mp parsedSecond
  have behind := Declaration.declareAll_behind front.layouts.reverse _ alone
    (1 + (Text.lines first.toList).length)
  rw [lines_join closed, Declaration.declareAll_append, run]
  refine behind.trans ?_
  simp only [opened_of_parse parsedSecond, List.map_reverse, List.mem_reverse, join,
    List.reverse_append]

/-! ## Messages for schemas in a row -/

def Knows (schema : Schema) (bytes : Bytes) : Prop :=
  ∃ layout ∈ schema.layouts, leadingTag bytes = .ok layout.name

theorem get?_join (front back : Schema) (tag : String) :
    (front.join back).get? tag = (front.get? tag).or (back.get? tag) :=
  List.find?_append

theorem get?_ne_none_iff {schema : Schema} {tag : String} :
    schema.get? tag ≠ none ↔ ∃ layout ∈ schema.layouts, layout.name = tag := by
  rw [get?, Ne, List.find?_eq_none]
  simp

theorem decode_join_of_knows {front : Schema} {bytes : Bytes} (known : front.Knows bytes)
    (back : Schema) (settings : Settings) :
    (front.join back).decode settings bytes = front.decode settings bytes := by
  obtain ⟨layout, member, tagged⟩ := known
  obtain ⟨found, lookup⟩ :=
    Option.ne_none_iff_exists'.mp (get?_ne_none_iff.mpr ⟨layout, member, rfl⟩)
  rw [decode, decode, tagged]
  simp only [bind, Except.bind, get?_join, lookup, Option.some_or]

theorem decode_join_of_not_knows {front : Schema} {bytes : Bytes} (unknown : ¬ front.Knows bytes)
    (back : Schema) (settings : Settings) :
    (front.join back).decode settings bytes = back.decode settings bytes := by
  rw [decode, decode]
  cases tagged : leadingTag bytes with
  | error cause => rfl
  | ok tag =>
    have lookup : front.get? tag = none := by
      by_contra found
      obtain ⟨layout, member, rfl⟩ := get?_ne_none_iff.mp found
      exact unknown ⟨layout, member, tagged⟩
    simp only [bind, Except.bind, get?_join, lookup, Option.none_or]

/-- Behind closed lines a description goes on where the first one ends.  A fault of the first stays
what it is.  Two descriptions without a common name give their layouts in a row, and a message goes
to the first schema if that knows its tag and to the second if not; of common names the first one
that the second opens is reported. -/
theorem descriptions_in_a_row_join {first : String} (closed : Text.Closed first.toList)
    (second : String) :
    (∀ cause, parse first = .error cause → parse (first ++ second) = .error cause) ∧
    ∀ front back : Schema, parse first = .ok front → parse second = .ok back →
      ((front.layouts.map (·.name)).Disjoint (back.layouts.map (·.name)) →
        parse (first ++ second) = .ok (front.join back) ∧
        ∀ (settings : Settings) (bytes : Bytes),
          (front.Knows bytes →
            (front.join back).decode settings bytes = front.decode settings bytes) ∧
          (¬ front.Knows bytes →
            (front.join back).decode settings bytes = back.decode settings bytes)) ∧
      (¬ (front.layouts.map (·.name)).Disjoint (back.layouts.map (·.name)) →
        ∃ name, (back.layouts.map (·.name)).find? (· ∈ front.layouts.map (·.name)) = some name ∧
          parse (first ++ second) = .error (.duplicateMessage name)) := by
  refine ⟨fun cause => parse_append_of_error closed second, ?_⟩
  intro front back parsedFirst parsedSecond
  have joined := declareAll_join closed parsedFirst parsedSecond
  refine ⟨?_, ?_⟩
  · intro apart
    have unshared : (back.layouts.map (·.name)).find? (· ∈ front.layouts.map (·.name)) = none := by
      rw [List.find?_eq_none]
      intro name member used
      exact apart (of_decide_eq_true used) member
    rw [unshared] at joined
    refine ⟨parse_eq_ok_iff_declareAll.mpr joined, ?_⟩
    intro settings bytes
    exact ⟨fun known => decode_join_of_knows known back settings,
      fun unknown => decode_join_of_not_knows unknown back settings⟩
  · intro shared
    cases found : (back.layouts.map (·.name)).find? (· ∈ front.layouts.map (·.name)) with
    | none =>
      have unshared := List.find?_eq_none.mp found
      refine absurd ?_ shared
      intro name used member
      exact unshared name member (decide_eq_true used)
    | some name =>
      rw [found] at joined
      exact ⟨name, rfl, parse_eq_error_iff_declareAll.mpr joined⟩

/-- A field of the second description goes to the message that is opened there, and of two common
names it is not the order of the first description that decides. -/
theorem ping_and_event_stand_in_a_row :
    parse ("MESSAGE Ping\nMESSAGE Pong\n" ++ "# more\nMESSAGE Event\nFIELD at int") =
        .ok ⟨[⟨"Ping", []⟩, ⟨"Pong", []⟩, ⟨"Event", [⟨"at", .integer⟩]⟩]⟩ ∧
      Schema.decode ⟨[⟨"Ping", []⟩, ⟨"Pong", []⟩, ⟨"Event", [⟨"at", .integer⟩]⟩]⟩ .standard
        (Utf8.encode "Event|7") = .ok ⟨"Event", [("at", .integer 7)]⟩ ∧
      parse ("MESSAGE Ping\nMESSAGE Pong\n" ++ "MESSAGE Event\nMESSAGE Pong\nMESSAGE Ping") =
        .error (.duplicateMessage "Pong") := by
  have closed : Text.Closed "MESSAGE Ping\nMESSAGE Pong\n".toList := by decide +kernel
  have parsed : parse "MESSAGE Ping\nMESSAGE Pong\n" = .ok ⟨[⟨"Ping", []⟩, ⟨"Pong", []⟩]⟩ := by
    decide +kernel
  have event : parse "# more\nMESSAGE Event\nFIELD at int" =
      .ok ⟨[⟨"Event", [⟨"at", .integer⟩]⟩]⟩ := by
    decide +kernel
  have pong : parse "MESSAGE Event\nMESSAGE Pong\nMESSAGE Ping" =
      .ok ⟨[⟨"Event", []⟩, ⟨"Pong", []⟩, ⟨"Ping", []⟩]⟩ := by
    decide +kernel
  obtain ⟨joined, decoded⟩ :=
    ((descriptions_in_a_row_join closed _).2 _ _ parsed event).1 (by simp)
  obtain ⟨name, found, refused⟩ :=
    ((descriptions_in_a_row_join closed _).2 _ _ parsed pong).2 (by simp)
  have unknown : ¬ Knows ⟨[⟨"Ping", []⟩, ⟨"Pong", []⟩]⟩ (Utf8.encode "Event|7") := by
    have tagged : leadingTag (Utf8.encode "Event|7") = .ok "Event" := by decide +kernel
    simp [Knows, tagged]
  refine ⟨joined, ?_, ?_⟩
  · refine ((decoded .standard (Utf8.encode "Event|7")).2 unknown).trans ?_
    decide +kernel
  · rw [refused, ← Option.some.inj found]

end Schema

end PipeCodec
