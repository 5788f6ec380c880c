import Mathlib.Data.List.Nodup
import PipeCodec.Proofs.Wire.Reading
import PipeCodec.Schema.Basic

/-!
# Declaring line after line

`Declares` says what an accepted line does to the layouts known so far: it leaves them, opens a
message with a fresh name, or adds a field to the message opened last.  Two facts are carried along
a run.  The names stay plain and distinct, and the declarations that the known layouts are written
with are those of the lines read so far.  The second fact determines the layouts, so a run is
described completely: it reaches exactly the well-named layouts that its lines spell.
-/

set_option autoImplicit false

namespace PipeCodec

theorem FieldKind.ofKeyword?_eq_some_iff {word : String} {kind : FieldKind} :
    FieldKind.ofKeyword? word = some kind ↔ word = kind.keyword := by
  rw [FieldKind.ofKeyword?]
  cases kind with
  | text => split_ifs <;> simp_all [FieldKind.keyword]
  | integer => split_ifs <;> simp_all [FieldKind.keyword]

@[simp]
theorem FieldKind.ofKeyword?_keyword (kind : FieldKind) :
    FieldKind.ofKeyword? kind.keyword = some kind :=
  FieldKind.ofKeyword?_eq_some_iff.mpr rfl

theorem FieldKind.ofKeyword?_eq_none_iff {word : String} :
    FieldKind.ofKeyword? word = none ↔ word ≠ "string" ∧ word ≠ "int" := by
  rw [FieldKind.ofKeyword?]
  split_ifs <;> simp_all

theorem FieldKind.exists_ofKeyword?_iff {word : String} :
    (∃ kind, FieldKind.ofKeyword? word = some kind) ↔ word = "string" ∨ word = "int" := by
  rw [← Option.ne_none_iff_exists', Ne, FieldKind.ofKeyword?_eq_none_iff, not_and_or, not_not,
    not_not]

def Layout.declarations (layout : Layout) : List Declaration :=
  .message layout.name :: layout.fields.map fun field => .field field.name field.kind.keyword

theorem Layout.mem_declarations {layouts : List Layout} {declaration : Declaration} :
    declaration ∈ layouts.flatMap declarations ↔
      ∃ layout ∈ layouts, declaration = .message layout.name ∨
        ∃ field ∈ layout.fields, declaration = .field field.name field.kind.keyword := by
  simp only [List.mem_flatMap, declarations, List.mem_cons, List.mem_map, eq_comm]

structure WellNamed (layouts : List Layout) : Prop where
  distinct : (layouts.map (·.name)).Nodup
  plain : ∀ layout ∈ layouts, '|' ∉ layout.name.toList ∧
    ∀ field ∈ layout.fields, '|' ∉ field.name.toList

instance (layouts : List Layout) : Decidable (WellNamed layouts) :=
  decidable_of_iff ((layouts.map (·.name)).Nodup ∧ ∀ layout ∈ layouts, '|' ∉ layout.name.toList ∧
      ∀ field ∈ layout.fields, '|' ∉ field.name.toList)
    ⟨fun named => ⟨named.1, named.2⟩, fun named => ⟨named.distinct, named.plain⟩⟩

theorem WellNamed.nil : WellNamed [] :=
  ⟨List.nodup_nil, fun _ member => absurd member List.not_mem_nil⟩

theorem WellNamed.reverse {layouts : List Layout} (named : WellNamed layouts) :
    WellNamed layouts.reverse := by
  refine ⟨?_, ?_⟩
  · rw [List.map_reverse, List.nodup_reverse]
    exact named.distinct
  · intro layout member
    exact named.plain layout (List.mem_reverse.mp member)

namespace Declaration

/-- What a declaration may do to the layouts known so far, of which the latest stands first. -/
inductive Declares : List Layout → Declaration → List Layout → Prop where
  | nothing (known : List Layout) : Declares known .nothing known
  | message {known : List Layout} {name : String} (plain : '|' ∉ name.toList)
      (fresh : name ∉ known.map (·.name)) : Declares known (.message name) (⟨name, []⟩ :: known)
  | field {latest : Layout} {earlier : List Layout} {name : String} {kind : FieldKind}
      (plain : '|' ∉ name.toList) : Declares (latest :: earlier) (.field name kind.keyword)
        ({ latest with fields := latest.fields ++ [⟨name, kind⟩] } :: earlier)

theorem declares_of_declare {line : Nat} {known next : List Layout} {declaration : Declaration}
    (accepted : declare line known declaration = .ok next) : Declares known declaration next := by
  cases declaration with
  | nothing =>
    cases accepted
    exact Declares.nothing known
  | message name =>
    simp only [declare, Wire.delimiter_mem_encode_iff] at accepted
    split_ifs at accepted with held used
    cases accepted
    exact Declares.message held (by simpa using used)
  | field name word =>
    cases known with
    | nil => cases accepted
    | cons latest earlier =>
      simp only [declare, Wire.delimiter_mem_encode_iff] at accepted
      cases read : FieldKind.ofKeyword? word with
      | none => simp [read] at accepted
      | some kind =>
        simp only [read] at accepted
        split_ifs at accepted with held
        cases accepted
        rw [FieldKind.ofKeyword?_eq_some_iff.mp read]
        exact Declares.field held
  | other content => cases accepted

theorem declare_of_declares {known next : List Layout} {declaration : Declaration}
    (declares : Declares known declaration next) (line : Nat) :
    declare line known declaration = .ok next := by
  cases declares with
  | nothing => rfl
  | message plain fresh =>
    simp only [declare, Wire.delimiter_mem_encode_iff]
    rw [if_neg plain, if_neg (by simpa using fresh)]
  | @field latest earlier name kind plain =>
    simp only [declare, Wire.delimiter_mem_encode_iff, FieldKind.ofKeyword?_keyword]
    rw [if_neg plain]

/-! ## What one line preserves -/

theorem Declares.wellNamed {known next : List Layout} {declaration : Declaration}
    (declares : Declares known declaration next) (named : WellNamed known) : WellNamed next := by
  cases declares with
  | nothing => exact named
  | message plain fresh =>
    refine ⟨List.nodup_cons.mpr ⟨fresh, named.distinct⟩, ?_⟩
    exact List.forall_mem_cons.mpr ⟨⟨plain, by simp⟩, named.plain⟩
  | @field latest earlier name kind plain =>
    obtain ⟨latestPlain, earlierPlain⟩ := List.forall_mem_cons.mp named.plain
    refine ⟨named.distinct, List.forall_mem_cons.mpr ⟨⟨latestPlain.1, ?_⟩, earlierPlain⟩⟩
    intro field member
    rcases List.mem_append.mp member with old | new
    · exact latestPlain.2 field old
    · rw [List.mem_singleton.mp new]
      exact plain

/-- The declarations that the known layouts are written with, in the order they were read. -/
def said (known : List Layout) : List Declaration :=
  known.reverse.flatMap Layout.declarations

/-- What a row of declarations says: all of them but those that say nothing. -/
def spoken (declarations : List Declaration) : List Declaration :=
  declarations.filter (· ≠ .nothing)

theorem spoken_cons (first : Declaration) (rest : List Declaration) :
    spoken (first :: rest) = spoken [first] ++ spoken rest := by
  simp only [spoken, ← List.filter_append, List.singleton_append]

theorem said_cons (latest : Layout) (earlier : List Layout) :
    said (latest :: earlier) = said earlier ++ latest.declarations := by
  simp [said]

theorem Declares.said {known next : List Layout} {declaration : Declaration}
    (declares : Declares known declaration next) :
    Declaration.said next = Declaration.said known ++ spoken [declaration] := by
  cases declares with
  | nothing => simp [spoken]
  | message plain fresh => simp [said_cons, Layout.declarations, spoken]
  | field plain => simp [said_cons, Layout.declarations, spoken]

/-! ## What a run preserves -/

inductive DeclaresAll : List Layout → List Declaration → List Layout → Prop where
  | nil (known : List Layout) : DeclaresAll known [] known
  | cons {known next final : List Layout} {first : Declaration} {rest : List Declaration}
      (step : Declares known first next) (run : DeclaresAll next rest final) :
      DeclaresAll known (first :: rest) final

theorem declareAll_eq_ok_iff (lines : List (List Char)) :
    ∀ (line : Nat) {known final : List Layout},
      declareAll line known lines = .ok final ↔ DeclaresAll known (lines.map ofLine) final := by
  induction lines with
  | nil =>
    intro line known final
    constructor
    · intro accepted
      cases accepted
      exact DeclaresAll.nil known
    · intro run
      cases run
      rfl
  | cons text rest ih =>
    intro line known final
    constructor
    · intro accepted
      obtain ⟨next, first, further⟩ := exists_of_bind_eq_ok accepted
      exact DeclaresAll.cons (declares_of_declare first) ((ih _).mp further)
    · intro run
      cases run with
      | cons step run =>
        rw [declareAll, declare_of_declares step line]
        exact (ih _).mpr run

/-- The lines at the back go on with the number and the layouts that those in front reach. -/
theorem declareAll_append (front back : List (List Char)) : ∀ (line : Nat) (known : List Layout),
    declareAll line known (front ++ back) =
      declareAll line known front >>= fun reached =>
        declareAll (line + front.length) reached back := by
  induction front with
  | nil => intro line known; rfl
  | cons text front ih =>
    intro line known
    rw [List.cons_append, declareAll, declareAll, List.length_cons, Nat.add_comm front.length 1,
      ← Nat.add_assoc]
    cases declare line known (ofLine text) with
    | error cause => rfl
    | ok next => exact ih (line + 1) next

theorem DeclaresAll.wellNamed {known final : List Layout} {declarations : List Declaration}
    (run : DeclaresAll known declarations final) (named : WellNamed known) : WellNamed final := by
  induction run with
  | nil known => exact named
  | cons step run ih => exact ih (step.wellNamed named)

theorem DeclaresAll.said {known final : List Layout} {declarations : List Declaration}
    (run : DeclaresAll known declarations final) :
    Declaration.said final = Declaration.said known ++ spoken declarations := by
  induction run with
  | nil known => simp [spoken]
  | @cons known next final first rest step run ih =>
    rw [ih, step.said, List.append_assoc, ← spoken_cons]

/-! ## Which layouts a run reaches -/

/-- The layouts that a row of declarations spells, with the fields that precede the first message
apart. -/
def layoutsOf : List Declaration → List Field × List Layout
  | [] => ([], [])
  | .message name :: rest => ([], ⟨name, (layoutsOf rest).1⟩ :: (layoutsOf rest).2)
  | .field name kind :: rest =>
    (⟨name, (FieldKind.ofKeyword? kind).getD .text⟩ :: (layoutsOf rest).1, (layoutsOf rest).2)
  | _ :: rest => layoutsOf rest

theorem layoutsOf_fields (fields : List Field) (rest : List Declaration) :
    layoutsOf (fields.map (fun field => .field field.name field.kind.keyword) ++ rest) =
      (fields ++ (layoutsOf rest).1, (layoutsOf rest).2) := by
  induction fields with
  | nil => rfl
  | cons field fields ih =>
    simp only [List.map_cons, List.cons_append, layoutsOf, ih, FieldKind.ofKeyword?_keyword,
      Option.getD_some]

theorem layoutsOf_declarations (layouts : List Layout) :
    layoutsOf (layouts.flatMap Layout.declarations) = ([], layouts) := by
  induction layouts with
  | nil => rfl
  | cons layout layouts ih =>
    rw [List.flatMap_cons, Layout.declarations, List.cons_append, layoutsOf, layoutsOf_fields, ih,
      List.append_nil]

theorem said_injective {left right : List Layout} (same : said left = said right) :
    left = right := by
  have read := congrArg layoutsOf same
  simp only [said, layoutsOf_declarations, Prod.mk.injEq, true_and] at read
  exact List.reverse_injective read

def messageName? : Declaration → Option String
  | .message name => some name
  | _ => none

theorem filterMap_messageName?_said (known : List Layout) :
    (said known).filterMap messageName? = (known.map (·.name)).reverse := by
  induction known with
  | nil => rfl
  | cons latest earlier ih =>
    simp [said_cons, ih, Layout.declarations, messageName?, List.filterMap_map, Function.comp_def]

/-- The next declaration of well-named layouts is never refused. -/
theorem exists_declares {known final : List Layout} {next : Declaration} {rest : List Declaration}
    (named : WellNamed final) (spells : said final = said known ++ next :: rest) :
    ∃ reached, Declares known next reached := by
  have written : next ∈ said final := by simp [spells]
  obtain ⟨layout, member, spelling⟩ := Layout.mem_declarations.mp written
  obtain ⟨namePlain, fieldsPlain⟩ := named.plain layout (List.mem_reverse.mp member)
  rcases spelling with rfl | ⟨field, among, rfl⟩
  · refine ⟨_, Declares.message namePlain ?_⟩
    -- The names known so far and then this one are among the final names, which are distinct.
    have names := filterMap_messageName?_said final
    rw [spells, List.filterMap_append, filterMap_messageName?_said] at names
    have distinct := List.nodup_reverse.mpr named.distinct
    rw [← names] at distinct
    intro used
    have apart := (List.nodup_append.mp distinct).2.2
    exact apart layout.name (List.mem_reverse.mpr used) layout.name (by simp [messageName?]) rfl
  · cases known with
    | nil =>
      -- No layout is written with a field in front.
      rw [said] at spells
      cases layouts : final.reverse with
      | nil => simp [layouts, said] at spells
      | cons opened others => simp [layouts, said, Layout.declarations] at spells
    | cons latest earlier =>
      exact ⟨_, Declares.field (fieldsPlain field among)⟩

theorem declaresAll_of_said {final : List Layout} (named : WellNamed final)
    (declarations : List Declaration) : ∀ known : List Layout,
    said final = said known ++ spoken declarations → DeclaresAll known declarations final := by
  induction declarations with
  | nil =>
    intro known spells
    have same : final = known := said_injective (by simpa [spoken] using spells)
    rw [same]
    exact DeclaresAll.nil known
  | cons first rest ih =>
    intro known spells
    obtain ⟨next, step⟩ : ∃ next, Declares known first next := by
      by_cases silent : first = .nothing
      · rw [silent]
        exact ⟨known, Declares.nothing known⟩
      · have saidNext : said final = said known ++ first :: spoken rest := by
          rw [spells]
          simp [spoken, silent]
        exact exists_declares named saidNext
    refine DeclaresAll.cons step (ih next ?_)
    rw [spells, spoken_cons, step.said, List.append_assoc]

/-- A run from nothing reaches exactly the well-named layouts whose declarations it consists of. -/
theorem declaresAll_iff {declarations : List Declaration} {final : List Layout} :
    DeclaresAll [] declarations final ↔ WellNamed final ∧ said final = spoken declarations := by
  constructor
  · intro run
    exact ⟨run.wellNamed WellNamed.nil, run.said⟩
  · rintro ⟨named, spells⟩
    exact declaresAll_of_said named declarations [] spells

end Declaration

theorem Schema.parse_eq_ok_iff_declaresAll {source : String} {layouts : List Layout} :
    Schema.parse source = .ok ⟨layouts⟩ ↔
      Declaration.DeclaresAll [] ((Text.lines source.toList).map Declaration.ofLine)
        layouts.reverse := by
  rw [← Declaration.declareAll_eq_ok_iff _ 1, Schema.parse]
  cases Declaration.declareAll 1 [] (Text.lines source.toList) with
  | error cause => simp [bind, Except.bind]
  | ok known => simp [bind, Except.bind, pure, Except.pure, List.reverse_eq_iff]

theorem Schema.parse_eq_ok_iff_declareAll {source : String} {schema : Schema} :
    Schema.parse source = .ok schema ↔
      Declaration.declareAll 1 [] (Text.lines source.toList) = .ok schema.layouts.reverse := by
  rw [Declaration.declareAll_eq_ok_iff]
  exact Schema.parse_eq_ok_iff_declaresAll

theorem Schema.parse_eq_error_iff_declareAll {source : String} {cause : SchemaError} :
    Schema.parse source = .error cause ↔
      Declaration.declareAll 1 [] (Text.lines source.toList) = .error cause := by
  rw [Schema.parse, bind_pure_comp, map_eq_error_iff]

theorem Schema.wellNamed_of_parse {source : String} {schema : Schema}
    (parsed : Schema.parse source = .ok schema) : WellNamed schema.layouts := by
  obtain ⟨layouts⟩ := schema
  have named := (Declaration.declaresAll_iff.mp (Schema.parse_eq_ok_iff_declaresAll.mp parsed)).1
  simpa using named.reverse

end PipeCodec
