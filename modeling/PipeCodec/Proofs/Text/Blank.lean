import Mathlib.Data.List.DropRight
import PipeCodec.Proofs.Text.Segment
import PipeCodec.Text.Blank

/-!
# Lines and words as they are written

`Lined` says what the lines of a text are by saying how a text with given lines is written, without
a way to find them; a text has exactly one such row of lines.  Where every line has its end, the
lines of what follows join the row.  For words the two directions are stated apart: a word between
blanks is found, and what is found is a word between blanks.  Blanks at the ends never change the
words, so it makes no difference that a line is trimmed first; what trimming leaves is the part of
the line that has blanks around it and none at its ends.
-/

set_option autoImplicit false

namespace PipeCodec.Text

/-! ## Lines -/

/-- A text and its lines.  A carriage return belongs to the end of a line only where a line feed
follows it, and the last line may lack its end. -/
inductive Lined : List Char → List (List Char) → Prop where
  | nil : Lined [] []
  | unclosed {line : List Char} (someChar : line ≠ []) (single : '\n' ∉ line) : Lined line [line]
  | lineFeed {line rest : List Char} {others : List (List Char)} (single : '\n' ∉ line)
      (bare : line.getLast? ≠ some '\r') (behind : Lined rest others) :
      Lined (line ++ '\n' :: rest) (line :: others)
  | carriageReturn {line rest : List Char} {others : List (List Char)} (single : '\n' ∉ line)
      (behind : Lined rest others) : Lined (line ++ '\r' :: '\n' :: rest) (line :: others)

theorem lines_unclosed {line : List Char} (someChar : line ≠ []) (single : '\n' ∉ line) :
    lines line = [line] := by
  rw [lines, Segment.splitAfter_of_notMem single someChar, List.map_singleton,
    Segment.dropLineEnd_of_notMem '\r' single]

theorem lines_closed {line : List Char} (rest : List Char) (single : '\n' ∉ line) :
    lines (line ++ '\n' :: rest) = Segment.dropFinal '\r' line :: lines rest := by
  rw [lines, Segment.splitAfter_append_mark rest single, List.map_cons,
    Segment.dropLineEnd_append_lineFeed]
  rfl

theorem lines_of_lined {source : List Char} {rows : List (List Char)} (lined : Lined source rows) :
    lines source = rows := by
  induction lined with
  | nil => rfl
  | unclosed someChar single => exact lines_unclosed someChar single
  | lineFeed single bare behind ih =>
    rw [lines_closed _ single, Segment.dropFinal_of_getLast? bare, ih]
  | @carriageReturn line rest others single behind ih =>
    have ended : line ++ '\r' :: '\n' :: rest = (line ++ ['\r']) ++ '\n' :: rest := by simp
    have single' : '\n' ∉ line ++ ['\r'] := by simpa using single
    rw [ended, lines_closed rest single', Segment.dropFinal_concat, ih]

theorem lined_lines (source : List Char) : Lined source (lines source) := by
  induction source using Segment.segment_induction '\n' with
  | unclosed source absent =>
    cases source with
    | nil => exact Lined.nil
    | cons c rest =>
      have someChar := List.cons_ne_nil c rest
      rw [lines_unclosed someChar absent]
      exact Lined.unclosed someChar absent
  | closed line rest single ih =>
    rw [lines_closed rest single]
    by_cases ended : line.getLast? = some '\r'
    · obtain ⟨text, rfl⟩ := List.getLast?_eq_some_iff.mp ended
      have single' : '\n' ∉ text := by simpa using single
      rw [Segment.dropFinal_concat, List.append_assoc]
      exact Lined.carriageReturn single' ih
    · rw [Segment.dropFinal_of_getLast? ended]
      exact Lined.lineFeed single ended ih

theorem lines_eq_iff {source : List Char} {rows : List (List Char)} :
    lines source = rows ↔ Lined source rows := by
  constructor
  · rintro rfl
    exact lined_lines source
  · exact lines_of_lined

/-- Fit to be a line that a line feed alone closes. -/
structure Ordinary (line : List Char) : Prop where
  single : '\n' ∉ line
  bare : line.getLast? ≠ some '\r'

theorem lined_flatMap (rows : List (List Char)) (ordinary : ∀ row ∈ rows, Ordinary row) :
    Lined (rows.flatMap (· ++ ['\n'])) rows := by
  induction rows with
  | nil => exact Lined.nil
  | cons row rows ih =>
    obtain ⟨first, others⟩ := List.forall_mem_cons.mp ordinary
    rw [List.flatMap_cons, List.append_assoc]
    exact Lined.lineFeed first.single first.bare (ih others)

/-! ## Texts whose lines all have their end -/

def Closed (chars : List Char) : Prop :=
  chars = [] ∨ chars.getLast? = some '\n'

instance (chars : List Char) : Decidable (Closed chars) :=
  inferInstanceAs (Decidable (chars = [] ∨ chars.getLast? = some '\n'))

theorem Closed.eq_nil {chars : List Char} (closed : Closed chars) (absent : '\n' ∉ chars) :
    chars = [] := by
  rcases closed with empty | last
  · exact empty
  · exact absurd (List.mem_of_getLast? last) absent

theorem closed_append_lineFeed_iff {line rest : List Char} :
    Closed (line ++ '\n' :: rest) ↔ Closed rest := by
  cases rest with
  | nil => simp [Closed]
  | cons c more => simp [Closed, List.getLast?_cons_cons]

/-- Behind closed lines the lines of a text are found as if it stood alone. -/
theorem lines_append {front : List Char} (closed : Closed front) (rest : List Char) :
    lines (front ++ rest) = lines front ++ lines rest := by
  induction front using Segment.segment_induction '\n' with
  | unclosed front absent =>
    rw [closed.eq_nil absent]
    rfl
  | closed line after single ih =>
    rw [List.append_assoc, List.cons_append, lines_closed _ single, lines_closed _ single,
      ih (closed_append_lineFeed_iff.mp closed), List.cons_append]

theorem length_lines {front : List Char} (closed : Closed front) :
    (lines front).length = front.count '\n' := by
  induction front using Segment.segment_induction '\n' with
  | unclosed front absent =>
    rw [closed.eq_nil absent]
    rfl
  | closed line after single ih =>
    rw [lines_closed after single, List.length_cons, ih (closed_append_lineFeed_iff.mp closed),
      List.count_append, List.count_eq_zero_of_not_mem single, List.count_cons_self, Nat.zero_add]

/-- A text with its lines cut in two rows is cut itself, behind the last line of the first row. -/
theorem exists_front_of_lined {line : List Char} {after : List (List Char)}
    (before : List (List Char)) : ∀ {source : List Char}, Lined source (before ++ line :: after) →
      ∃ front rest, source = front ++ rest ∧ Closed front ∧ Lined front before ∧
        Lined rest (line :: after) := by
  induction before with
  | nil =>
    intro source lined
    exact ⟨[], source, rfl, Or.inl rfl, Lined.nil, lined⟩
  | cons first before ih =>
    intro source lined
    generalize rows : first :: before ++ line :: after = all at lined
    cases lined with
    | nil => cases rows
    | unclosed someChar single => simp at rows
    | lineFeed single bare behind =>
      cases rows
      obtain ⟨front, rest, rfl, closed, fronted, lined⟩ := ih behind
      refine ⟨_, rest, ?_, closed_append_lineFeed_iff.mpr closed,
        Lined.lineFeed single bare fronted, lined⟩
      rw [List.append_assoc, List.cons_append]
    | carriageReturn single behind =>
      cases rows
      obtain ⟨front, rest, rfl, closed, fronted, lined⟩ := ih behind
      refine ⟨_, rest, ?_, ?_, Lined.carriageReturn single fronted, lined⟩
      · rw [List.append_assoc, List.cons_append, List.cons_append]
      · rw [List.append_cons]
        exact closed_append_lineFeed_iff.mpr closed

/-! ## Blanks and words -/

def Blanks (chars : List Char) : Prop :=
  ∀ c ∈ chars, isBlank c = true

structure IsWord (chars : List Char) : Prop where
  ne_nil : chars ≠ []
  solid : ∀ c ∈ chars, isBlank c = false

structure Gap (chars : List Char) : Prop where
  ne_nil : chars ≠ []
  blank : Blanks chars

instance (chars : List Char) : Decidable (Blanks chars) :=
  decidable_of_iff (chars.all isBlank = true) List.all_eq_true

instance (chars : List Char) : Decidable (IsWord chars) :=
  decidable_of_iff (chars ≠ [] ∧ chars.all (!isBlank ·) = true)
    ⟨fun word => ⟨word.1, by simpa using word.2⟩,
      fun word => ⟨word.ne_nil, by simpa using word.solid⟩⟩

instance (chars : List Char) : Decidable (Gap chars) :=
  decidable_of_iff (chars ≠ [] ∧ Blanks chars)
    ⟨fun gap => ⟨gap.1, gap.2⟩, fun gap => ⟨gap.ne_nil, gap.blank⟩⟩

/-- Where a word can end: at the end of the text or before a blank. -/
def Bounded (after : List Char) : Prop :=
  after.head?.all isBlank = true

theorem Gap.bounded_append {gap : List Char} (apart : Gap gap) (rest : List Char) :
    Bounded (gap ++ rest) := by
  cases gap with
  | nil => exact absurd rfl apart.ne_nil
  | cons c more => exact apart.blank c List.mem_cons_self

theorem Blanks.bounded {gap : List Char} (blank : Blanks gap) : Bounded gap := by
  cases gap with
  | nil => rfl
  | cons c more => exact blank c List.mem_cons_self

theorem IsWord.not_bounded {word : List Char} (solid : IsWord word) (rest : List Char) :
    ¬ Bounded (word ++ rest) := by
  cases word with
  | nil => exact absurd rfl solid.ne_nil
  | cons c more =>
    have first := solid.solid c List.mem_cons_self
    simp [Bounded, first]

theorem IsWord.notMem_of_isBlank {word : List Char} (solid : IsWord word) {c : Char}
    (blank : isBlank c = true) : c ∉ word := by
  intro member
  rw [solid.solid c member] at blank
  cases blank

theorem IsWord.ordinary_append {word : List Char} (solid : IsWord word) {before : List Char}
    (single : '\n' ∉ before) : Ordinary (before ++ word) := by
  refine ⟨?_, ?_⟩
  · intro member
    rcases List.mem_append.mp member with front | back
    · exact single front
    · exact solid.notMem_of_isBlank (by decide) back
  · rw [List.getLast?_append_of_ne_nil before solid.ne_nil]
    intro last
    exact solid.notMem_of_isBlank (by decide) (List.mem_of_getLast? last)

theorem words_cons_of_blank {c : Char} (blank : isBlank c = true) (rest : List Char) :
    words (c :: rest) = words rest := by
  rw [words, if_pos blank]

theorem words_cons_of_bounded {c : Char} (solid : isBlank c = false) {rest : List Char}
    (bounded : Bounded rest) : words (c :: rest) = [c] :: words rest := by
  rw [Bounded] at bounded
  simp [words, solid, bounded]

theorem words_cons_of_not_bounded {c : Char} (solid : isBlank c = false) {rest : List Char}
    (goesOn : ¬ Bounded rest) : words (c :: rest) = Segment.extendFirst c (words rest) := by
  rw [Bounded] at goesOn
  simp [words, solid, goesOn]

theorem words_blanks {before : List Char} (blank : Blanks before) (rest : List Char) :
    words (before ++ rest) = words rest := by
  induction before with
  | nil => rfl
  | cons c more ih =>
    have others := ih fun other member => blank other (List.mem_cons_of_mem c member)
    rw [List.cons_append, words_cons_of_blank (blank c List.mem_cons_self), others]

theorem words_of_blanks {gap : List Char} (blank : Blanks gap) : words gap = [] := by
  have none := words_blanks blank []
  rwa [List.append_nil] at none

theorem words_word {word : List Char} (solid : IsWord word) {rest : List Char}
    (bounded : Bounded rest) : words (word ++ rest) = word :: words rest := by
  induction word with
  | nil => exact absurd rfl solid.ne_nil
  | cons c more ih =>
    have first := solid.solid c List.mem_cons_self
    cases more with
    | nil => exact words_cons_of_bounded first bounded
    | cons d others =>
      have solid' : IsWord (d :: others) := ⟨List.cons_ne_nil d others, fun other member =>
        solid.solid other (List.mem_cons_of_mem c member)⟩
      rw [List.cons_append, words_cons_of_not_bounded first (solid'.not_bounded rest), ih solid']
      rfl

theorem words_append_blanks (chars : List Char) {after : List Char} (blank : Blanks after) :
    words (chars ++ after) = words chars := by
  induction chars with
  | nil => exact words_of_blanks blank
  | cons c rest ih =>
    have next : (rest ++ after).head?.all isBlank = rest.head?.all isBlank := by
      cases rest with
      | nil => exact blank.bounded
      | cons d more => rfl
    simp only [List.cons_append, words, ih, next]

theorem blanks_of_words_eq_nil {chars : List Char} (none : words chars = []) : Blanks chars := by
  induction chars with
  | nil => simp [Blanks]
  | cons c rest ih =>
    cases kind : isBlank c with
    | true =>
      rw [words_cons_of_blank kind] at none
      exact List.forall_mem_cons.mpr ⟨kind, ih none⟩
    | false =>
      by_cases bounded : Bounded rest
      · rw [words_cons_of_bounded kind bounded] at none
        cases none
      · rw [words_cons_of_not_bounded kind bounded] at none
        cases found : words rest with
        | nil => simp [found, Segment.extendFirst] at none
        | cons word others => simp [found, Segment.extendFirst] at none

theorem words_eq_cons {chars : List Char} : ∀ {word : List Char} {others : List (List Char)},
    words chars = word :: others →
    ∃ before after, chars = before ++ word ++ after ∧ Blanks before ∧ IsWord word ∧
      Bounded after ∧ words after = others := by
  induction chars with
  | nil => intro word others found; cases found
  | cons c rest ih =>
    intro word others found
    cases kind : isBlank c with
    | true =>
      rw [words_cons_of_blank kind] at found
      obtain ⟨before, after, rfl, front, solid, bounded, behind⟩ := ih found
      have front' : Blanks (c :: before) := List.forall_mem_cons.mpr ⟨kind, front⟩
      exact ⟨c :: before, after, rfl, front', solid, bounded, behind⟩
    | false =>
      by_cases bounded : Bounded rest
      · rw [words_cons_of_bounded kind bounded] at found
        cases found
        exact ⟨[], rest, rfl, by simp [Blanks], ⟨by simp, by simpa using kind⟩, bounded, rfl⟩
      · rw [words_cons_of_not_bounded kind bounded] at found
        cases inner : words rest with
        | nil => exact absurd (blanks_of_words_eq_nil inner).bounded bounded
        | cons first more =>
          rw [inner] at found
          cases found
          obtain ⟨before, after, rfl, front, solid, ends, behind⟩ := ih inner
          -- The rest begins inside the word, so no blanks stand before its first word.
          cases before with
          | nil =>
            refine ⟨[], after, rfl, by simp [Blanks], ⟨by simp, ?_⟩, ends, behind⟩
            exact List.forall_mem_cons.mpr ⟨kind, solid.solid⟩
          | cons d gap =>
            have apart : Gap (d :: gap) := ⟨List.cons_ne_nil d gap, front⟩
            rw [List.append_assoc] at bounded
            exact absurd (apart.bounded_append (first ++ after)) bounded

/-- Behind a word the next one comes after one blank or more. -/
theorem words_eq_cons_of_bounded {chars word : List Char} {others : List (List Char)}
    (found : words chars = word :: others) (bounded : Bounded chars) :
    ∃ gap after, chars = gap ++ word ++ after ∧ Gap gap ∧ IsWord word ∧
      Bounded after ∧ words after = others := by
  obtain ⟨gap, after, rfl, blank, solid, ends, behind⟩ := words_eq_cons found
  refine ⟨gap, after, rfl, ⟨?_, blank⟩, solid, ends, behind⟩
  rintro rfl
  exact solid.not_bounded after bounded

/-! ## Trimmed lines -/

theorem exists_trim (chars : List Char) :
    ∃ before after, chars = before ++ trim chars ++ after ∧ Blanks before ∧ Blanks after := by
  have back : trim chars ++ (chars.dropWhile isBlank).rtakeWhile isBlank =
      chars.dropWhile isBlank := List.rdropWhile_append_rtakeWhile
  refine ⟨chars.takeWhile isBlank, (chars.dropWhile isBlank).rtakeWhile isBlank, ?_, ?_, ?_⟩
  · rw [List.append_assoc, back, List.takeWhile_append_dropWhile]
  · intro c member
    exact List.mem_takeWhile_imp member
  · intro c member
    exact List.mem_rtakeWhile_imp member

theorem words_trim (chars : List Char) : words (trim chars) = words chars := by
  obtain ⟨before, after, whole, front, back⟩ := exists_trim chars
  calc words (trim chars)
      = words (before ++ trim chars) := (words_blanks front _).symm
    _ = words (before ++ trim chars ++ after) := (words_append_blanks _ back).symm
    _ = words chars := by rw [← whole]

theorem trim_eq_nil_iff {chars : List Char} : trim chars = [] ↔ Blanks chars := by
  constructor
  · intro empty
    apply blanks_of_words_eq_nil
    rw [← words_trim, empty]
    rfl
  · intro blank
    have all : chars.dropWhile isBlank = [] := List.dropWhile_eq_nil_iff.mpr blank
    rw [trim, all]
    rfl

theorem head?_trim {before : List Char} (blank : Blanks before) {c : Char}
    (solid : isBlank c = false) (text : List Char) :
    (trim (before ++ c :: text)).head? = some c := by
  have front : (before ++ c :: text).dropWhile isBlank = c :: text := by
    rw [List.dropWhile_append_of_pos blank, List.dropWhile_cons_of_neg (by simp [solid])]
  have kept : trim (before ++ c :: text) <+: c :: text := by
    rw [trim, front]
    exact List.rdropWhile_prefix isBlank _
  rcases List.prefix_cons_iff.mp kept with empty | ⟨rest, trimmed, -⟩
  · have all := trim_eq_nil_iff.mp empty c (by simp)
    rw [solid] at all
    cases all
  · rw [trimmed, List.head?_cons]

structure Trimmed (line content : List Char) : Prop where
  surrounded : ∃ before after, Blanks before ∧ Blanks after ∧ line = before ++ content ++ after
  solidFirst : ∀ c, content.head? = some c → isBlank c = false
  solidLast : ∀ c, content.getLast? = some c → isBlank c = false

theorem dropWhile_blanks {before content : List Char} (blank : Blanks before)
    (solid : ∀ c, content.head? = some c → isBlank c = false) :
    (before ++ content).dropWhile isBlank = content := by
  rw [List.dropWhile_append_of_pos blank]
  cases content with
  | nil => rfl
  | cons c rest => exact List.dropWhile_cons_of_neg (by simp [solid c rfl])

theorem trimmed_trim (line : List Char) : Trimmed line (trim line) := by
  obtain ⟨before, after, whole, front, back⟩ := exists_trim line
  refine ⟨⟨before, after, front, back, whole⟩, ?_, ?_⟩
  · intro c first
    have kept : trim line <+: line.dropWhile isBlank := List.rdropWhile_prefix isBlank _
    obtain ⟨rest, split⟩ := kept
    have leading : (line.dropWhile isBlank).head? = some c := by
      rw [← split, List.head?_append, first, Option.some_or]
    have solid := List.head?_dropWhile_not isBlank line
    rw [leading] at solid
    exact solid
  · intro c last
    have someChar : trim line ≠ [] := by
      intro empty
      rw [empty] at last
      cases last
    have solid := List.rdropWhile_last_not isBlank (line.dropWhile isBlank) someChar
    rw [List.getLast?_eq_some_getLast someChar, Option.some.injEq] at last
    rw [← last]
    exact Bool.eq_false_iff.mpr solid

theorem trim_of_trimmed {line content : List Char} (trimmed : Trimmed line content) :
    trim line = content := by
  obtain ⟨before, after, front, back, rfl⟩ := trimmed.surrounded
  by_cases empty : content = []
  · rw [empty, List.append_nil]
    refine trim_eq_nil_iff.mpr ?_
    exact fun c member => (List.mem_append.mp member).elim (front c) (back c)
  · have leading : ∀ c, (content ++ after).head? = some c → isBlank c = false := by
      rw [List.head?_append_of_ne_nil content empty]
      exact trimmed.solidFirst
    have trailing : ∀ c, content.reverse.head? = some c → isBlank c = false := by
      rw [List.head?_reverse]
      exact trimmed.solidLast
    have back' : Blanks after.reverse := fun c member => back c (List.mem_reverse.mp member)
    rw [trim, List.append_assoc, dropWhile_blanks front leading, Segment.dropEndWhile,
      List.reverse_append, dropWhile_blanks back' trailing, List.reverse_reverse]

theorem trimmed_iff {line content : List Char} : Trimmed line content ↔ content = trim line := by
  constructor
  · intro trimmed
    exact (trim_of_trimmed trimmed).symm
  · rintro rfl
    exact trimmed_trim line

end PipeCodec.Text
