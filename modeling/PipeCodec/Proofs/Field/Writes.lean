import PipeCodec.Proofs.Field.Reads
import PipeCodec.Proofs.Message.Encoding

/-!
# Writes in a row

Values are written one after the other, whatever becomes of each write.  A text that holds the
delimiter is refused and leaves no byte behind, so the finished frame is that of the accepted values
alone.  Read back by their kinds these values come in order, with empty texts for missing ones, and
behind them there is nothing more to read.
-/

set_option autoImplicit false

namespace PipeCodec

namespace Frame

/-- Writes one value after the other, each into the frame that the one before it left, failed or
not. -/
def writeEach : List (String × Value) → Frame → List (Except WireError Unit) × Frame
  | [], frame => ([], frame)
  | entry :: entries, frame =>
    let (report, moved) := (entry.2.write entry.1).run.run frame
    let (reports, final) := writeEach entries moved
    (report :: reports, final)

def accepted (entries : List (String × Value)) : List (String × Value) :=
  entries.filter (¬ ·.2.HoldsDelimiter)

theorem accepted_cons_of_held {entry : String × Value} (held : entry.2.HoldsDelimiter)
    (entries : List (String × Value)) : accepted (entry :: entries) = accepted entries := by
  rw [accepted, List.filter_cons_of_neg (by simpa using held), accepted]

theorem accepted_cons_of_free {entry : String × Value} (free : ¬ entry.2.HoldsDelimiter)
    (entries : List (String × Value)) :
    accepted (entry :: entries) = entry :: accepted entries := by
  rw [accepted, List.filter_cons_of_pos (by simpa using free), accepted]

theorem delimiter_notMem_of_accepted (entries : List (String × Value)) :
    ∀ entry ∈ accepted entries, Wire.delimiter ∉ entry.2.span := by
  intro entry member
  have free := (List.mem_filter.mp member).2
  rw [← entry.2.holdsDelimiter_iff]
  simpa using free

/-! ## What one write and a row of writes do -/

theorem run_write_of_held {entry : String × Value} (held : entry.2.HoldsDelimiter)
    (frame : Frame) :
    (entry.2.write entry.1).run.run frame = (.error (.delimiterInside entry.1), frame) := by
  rw [Value.run_write, if_pos (entry.2.holdsDelimiter_iff.mp held)]

theorem run_write_of_free {entry : String × Value} (free : ¬ entry.2.HoldsDelimiter)
    (frame : Frame) :
    (entry.2.write entry.1).run.run frame = (.ok (), frame.push entry.2.span) := by
  rw [Value.run_write, if_neg (mt entry.2.holdsDelimiter_iff.mpr free)]

theorem writeEach_fst (entries : List (String × Value)) : ∀ frame : Frame,
    (writeEach entries frame).1 = entries.map fun entry =>
      if entry.2.HoldsDelimiter then .error (.delimiterInside entry.1) else .ok () := by
  induction entries with
  | nil => intro frame; rfl
  | cons entry entries ih =>
    intro frame
    by_cases held : entry.2.HoldsDelimiter
    · simp only [writeEach, run_write_of_held held, ih, List.map_cons, if_pos held]
    · simp only [writeEach, run_write_of_free held, ih, List.map_cons, if_neg held]

/-- A row of writes appends the closed spans of the accepted values. -/
theorem writeEach_snd (entries : List (String × Value)) : ∀ frame : Frame,
    (writeEach entries frame).2 = { frame with
      bytes := frame.bytes ++ ((accepted entries).map (·.2.span)).flatMap Wire.closeSpan } := by
  induction entries with
  | nil =>
    intro frame
    simp [writeEach, accepted]
  | cons entry entries ih =>
    intro frame
    by_cases held : entry.2.HoldsDelimiter
    · simp only [writeEach, run_write_of_held held, ih, accepted_cons_of_held held]
    · simp only [writeEach, run_write_of_free held, ih, accepted_cons_of_free held, push,
        List.map_cons, List.flatMap_cons, List.append_assoc]

theorem writeEach_concat_of_held {entry : String × Value} (held : entry.2.HoldsDelimiter)
    (entries : List (String × Value)) (frame : Frame) :
    (writeEach (entries ++ [entry]) frame).2 = (writeEach entries frame).2 := by
  rw [writeEach_snd, writeEach_snd, accepted, List.filter_append,
    List.filter_cons_of_neg (by simpa using held), List.filter_nil, List.append_nil, accepted]

theorem finish_writeEach (tag : String) (capacity : Nat) (entries : List (String × Value)) :
    (writeEach entries (start tag capacity)).2.finish =
      if (LabelledMessage.wire ⟨tag, accepted entries⟩).length ≤ capacity then
        .ok (LabelledMessage.wire ⟨tag, accepted entries⟩)
      else
        .error (.overCapacity (LabelledMessage.wire ⟨tag, accepted entries⟩).length capacity) := by
  have whole : (writeEach entries (start tag capacity)).2 =
      ⟨LabelledMessage.wire ⟨tag, accepted entries⟩, capacity⟩ := writeEach_snd entries _
  rw [whole, finish]
  by_cases room : (LabelledMessage.wire ⟨tag, accepted entries⟩).length ≤ capacity
  · rw [if_neg (Nat.not_lt.mpr room), if_pos room]
  · rw [if_pos (Nat.lt_of_not_le room), if_neg room]

end Frame

/-! ## Reading back -/

namespace Cursor

theorem readEach_of_spent (fields : List Field) : ∀ cursor : Cursor,
    Wire.spans cursor.rest = [] →
      (readEach fields cursor).1 = fields.map fun field => .ok field.kind.missing := by
  induction fields with
  | nil => intro cursor spent; rfl
  | cons field fields ih =>
    intro cursor spent
    have moved : Wire.spans cursor.advance.2.rest = [] := by
      rw [spans_advance, spent, List.tail_nil]
    rw [readEach_cons, ih _ moved, spent, List.head?_nil, Value.ofSpan_none, List.map_cons]

/-- Where the spans of values are left, fields of their kinds read the values, and behind them all
is missing. -/
theorem readEach_of_spans (further : List Field) (entries : List (String × Value)) :
    ∀ (fields : List Field) (cursor : Cursor),
      fields.map (·.kind) = entries.map (·.2.kind) →
      Wire.spans cursor.rest = entries.map (·.2.span) →
      (readEach (fields ++ further) cursor).1 =
        entries.map (fun entry => .ok entry.2.normalize) ++
          further.map (fun field => .ok field.kind.missing) := by
  induction entries with
  | nil =>
    intro fields cursor kinds left
    rw [List.map_eq_nil_iff.mp kinds]
    exact readEach_of_spent further cursor left
  | cons entry entries ih =>
    intro fields cursor kinds left
    cases fields with
    | nil => cases kinds
    | cons field fields =>
      obtain ⟨kind, others⟩ := List.cons.inj kinds
      have own : field = Field.ofEntry (field.name, entry.2) := congrArg (Field.mk field.name) kind
      have behind : Wire.spans cursor.advance.2.rest = entries.map (·.2.span) := by
        rw [spans_advance, left, List.map_cons, List.tail_cons]
      rw [List.cons_append, readEach_cons, ih fields _ others behind, left, List.map_cons,
        List.head?_cons, own, Value.ofSpan_span, List.map_cons, List.cons_append]

end Cursor

namespace Frame

/-- The accepted values stand behind their tag, span by span. -/
theorem exists_enter_wire {tag : String} (plain : '|' ∉ tag.toList)
    (entries : List (String × Value)) (integers : IntegerRule) :
    ∃ cursor, Cursor.enter (LabelledMessage.wire ⟨tag, accepted entries⟩) tag integers =
        .ok cursor ∧
      Wire.spans cursor.rest = (accepted entries).map (·.2.span) := by
  have plain : Wire.delimiter ∉ Utf8.encode tag := mt (Wire.delimiter_mem_encode_iff tag).mp plain
  have free : ∀ span ∈ (accepted entries).map (·.2.span), Wire.delimiter ∉ span := by
    intro span member
    obtain ⟨entry, among, rfl⟩ := List.mem_map.mp member
    exact delimiter_notMem_of_accepted entries entry among
  refine ⟨_, Cursor.enter_eq_ok_iff.mpr ⟨_, Wire.nextSpan?_closeSpan _ _ plain, rfl⟩, ?_⟩
  exact Wire.spans_of_closed free

/-- A write fails exactly if its value holds the delimiter, and then the frame stays as it was.
What is finished is the tag and the spans of the accepted values, if the capacity holds them.
Behind a tag without the delimiter, fields of their kinds read these values back under either rule
for integers, and fields beyond them are missing. -/
theorem accepted_values_read_back (tag : String) (capacity : Nat)
    (entries : List (String × Value)) :
    (writeEach entries (start tag capacity)).1 = entries.map (fun entry =>
      if entry.2.HoldsDelimiter then .error (.delimiterInside entry.1) else .ok ()) ∧
    (∀ before entry, entry.2.HoldsDelimiter →
      (writeEach (before ++ [entry]) (start tag capacity)).2 =
        (writeEach before (start tag capacity)).2) ∧
    ∃ (spans : List Bytes) (out : Bytes),
      (∀ row, List.Forall₂ (fun entry span => entry.2.Spelling span) (accepted entries) row ↔
        row = spans) ∧
      out = (Utf8.encode tag :: spans).flatMap Wire.closeSpan ∧
      (writeEach entries (start tag capacity)).2.finish =
        (if out.length ≤ capacity then .ok out else .error (.overCapacity out.length capacity)) ∧
      ('|' ∉ tag.toList → ∀ integers : IntegerRule,
        ∃ cursor, Cursor.enter out tag integers = .ok cursor ∧
          ∀ fields further : List Field,
            fields.map (·.kind) = (accepted entries).map (·.2.kind) →
            (cursor.readEach (fields ++ further)).1 =
              (accepted entries).map (fun entry => .ok entry.2.normalize) ++
                further.map (fun field => .ok field.kind.missing)) := by
  refine ⟨writeEach_fst entries _, ?_, (accepted entries).map (·.2.span),
    LabelledMessage.wire ⟨tag, accepted entries⟩, LabelledMessage.spelled_iff _, rfl,
    finish_writeEach tag capacity entries, ?_⟩
  · intro before entry held
    exact writeEach_concat_of_held held before _
  · intro plain integers
    obtain ⟨cursor, entered, left⟩ := exists_enter_wire plain entries integers
    refine ⟨cursor, entered, ?_⟩
    intro fields further kinds
    exact Cursor.readEach_of_spans further (accepted entries) fields cursor kinds left

/-- The text with a bar leaves no trace, and the read behind the last value finds nothing. -/
theorem values_around_a_refused_text_read_back :
    (writeEach [("a", .text none), ("b", .text (some "x|y")), ("c", .integer (-3))]
        (start "T" 6)).2.finish = .ok (Utf8.encode "T||-3|") ∧
      ∃ cursor, Cursor.enter (Utf8.encode "T||-3|") "T" .exact = .ok cursor ∧
        (cursor.readEach [⟨"p", .text⟩, ⟨"q", .integer⟩, ⟨"r", .text⟩]).1 =
          [.ok (.text (some "")), .ok (.integer (-3)), .ok (.text none)] := by
  obtain ⟨-, -, spans, out, spelled, whole, finished, back⟩ := accepted_values_read_back "T" 6
    [("a", .text none), ("b", .text (some "x|y")), ("c", .integer (-3))]
  have row := (spelled _).mp ((LabelledMessage.spelled_iff _ _).mpr rfl)
  have written : out = Utf8.encode "T||-3|" := by
    rw [whole, ← row]
    decide +kernel
  rw [written] at finished back
  refine ⟨finished.trans (if_pos (by decide +kernel)), ?_⟩
  obtain ⟨cursor, entered, reads⟩ := back (by decide) .exact
  have kept : accepted [("a", .text none), ("b", .text (some "x|y")), ("c", .integer (-3))] =
      [("a", .text none), ("c", .integer (-3))] := by
    decide +kernel
  rw [kept] at reads
  exact ⟨cursor, entered, reads [⟨"p", .text⟩, ⟨"q", .integer⟩] [⟨"r", .text⟩] rfl⟩

end Frame

end PipeCodec
