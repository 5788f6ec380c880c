import PipeCodec.Proofs.Session.Answers

/-!
# Sessions on a sink of limited room

A session whose output does not fit its sink prints the part that fits and ends with the failure of
the write that was cut off, be that a prompt or an answer.  It does not read on: a line is read only
if the prompt for it was shown as a whole.  A session whose output fits does not notice the limit.
-/

set_option autoImplicit false

namespace PipeCodec

namespace Sink

def ofRoom (room : Nat) (atOnce : Option Nat) : Sink :=
  ⟨[], some room, atOnce, none⟩

theorem fitting_ofRoom_eq_self_iff {room : Nat} {atOnce : Option Nat} {bytes : Bytes} :
    (ofRoom room atOnce).fitting bytes = bytes ↔ bytes.length ≤ room := by
  rw [fitting_eq_self_iff]
  simp [ofRoom]

theorem unfailing_unlimited : unlimited.Unfailing :=
  ⟨rfl, nofun, rfl⟩

end Sink

namespace Session

def told (settings : Settings) (lines : List Bytes) : Bytes :=
  Utf8.encode (transcript settings lines).1

/-- The lines behind the one that ends the session. -/
def unread (lines : List Bytes) : List Bytes :=
  (lines.dropWhile fun line => ¬ Stops line).tail

section Turns

variable {settings : Settings}

/-! ## The first line of an input -/

theorem stops_of_leave {line : Bytes} (someByte : line ≠ []) {result : Except SessionError Unit}
    (left : react settings (Command.ofLine line) = .leave result) : Stops line := by
  rw [react_ofLine settings someByte] at left
  cases typed : entry? line with
  | none => exact Or.inl typed
  | some entry =>
    simp only [typed] at left
    split_ifs at left with leaves
    exact Or.inr (by rw [typed, leaves])

theorem exists_entry_of_say {line : Bytes} (someByte : line ≠ []) {text : String}
    (goesOn : react settings (Command.ofLine line) = .say text) :
    ¬ Stops line ∧ ∃ entry, entry? line = some entry ∧ text = reply settings entry := by
  rw [react_ofLine settings someByte] at goesOn
  cases typed : entry? line with
  | none =>
    rw [typed] at goesOn
    cases goesOn
  | some entry =>
    simp only [typed] at goesOn
    split_ifs at goesOn with leaves
    cases goesOn
    refine ⟨?_, entry, rfl, rfl⟩
    rw [Stops, typed]
    simp [leaves]

/-- A line that the session goes on behind is there, and it is told by its prompt and its answer. -/
theorem line_of_say {input : Bytes} {text : String}
    (goesOn : react settings (Command.ofLine (Segment.cutAfter Feed.lineFeed input).1) =
      .say text) :
    Segment.splitAfter Feed.lineFeed input =
        (Segment.cutAfter Feed.lineFeed input).1 ::
          Segment.splitAfter Feed.lineFeed (Segment.cutAfter Feed.lineFeed input).2 ∧
      ¬ Stops (Segment.cutAfter Feed.lineFeed input).1 ∧
      ∀ later, told settings ((Segment.cutAfter Feed.lineFeed input).1 :: later) =
        Utf8.encode "> " ++ (Utf8.encode text ++ told settings later) := by
  have someInput : input ≠ [] := by
    rintro rfl
    cases goesOn
  have someByte := Segment.cutAfter_fst_ne_nil Feed.lineFeed input someInput
  obtain ⟨stays, entry, typed, rfl⟩ := exists_entry_of_say someByte goesOn
  refine ⟨Segment.splitAfter_eq_cons someInput, stays, ?_⟩
  intro later
  have turns := transcript_append settings later (List.forall_mem_singleton.mpr stays)
  rw [List.singleton_append] at turns
  rw [told, turns]
  simp only [List.map_singleton, String.join_cons, String.join_nil, turn_of_entry settings typed,
    Utf8.encode_append, List.append_assoc]
  rfl

theorem fits_prompt_of_told {sink : Sink} {lines : List Bytes}
    (fits : sink.fitting (told settings lines) = told settings lines) :
    sink.fitting (Utf8.encode "> ") = Utf8.encode "> " := by
  obtain ⟨later, begins⟩ := exists_transcript_eq settings lines
  rw [told, begins, Utf8.encode_append] at fits
  exact (Sink.fitting_append_eq_self_iff.mp fits).1

end Turns

/-! ## What is left of the input -/

/-- A session whose output fits leaves what stands behind the line that ends it. -/
theorem run_input_of_fits (settings : Settings) (session : Session)
    (useful : session.sink.atOnce ≠ some 0) (flushes : session.sink.flushFailure = none) :
    session.sink.fitting (told settings (Segment.splitAfter Feed.lineFeed session.input)) =
        told settings (Segment.splitAfter Feed.lineFeed session.input) →
      (run settings session).2.input =
        (unread (Segment.splitAfter Feed.lineFeed session.input)).flatten := by
  refine run_induction settings (motive := fun session outcome =>
    session.sink.fitting (told settings (Segment.splitAfter Feed.lineFeed session.input)) =
        told settings (Segment.splitAfter Feed.lineFeed session.input) →
      outcome.2.input = (unread (Segment.splitAfter Feed.lineFeed session.input)).flatten)
    ?_ ?_ ?_ ?_ session useful flushes
  · intro session cut fits
    exact absurd (fits_prompt_of_told fits) cut
  · intro session result shown left fits
    by_cases used : session.input = []
    · rw [used]
      rfl
    · have stops := stops_of_leave (Segment.cutAfter_fst_ne_nil Feed.lineFeed _ used) left
      rw [Segment.splitAfter_eq_cons used, unread,
        List.dropWhile_cons_of_neg (by simpa using stops), List.tail_cons,
        Segment.flatten_splitAfter]
  · intro session output shown said cut fits
    obtain ⟨row, stays, turns⟩ := line_of_say said
    rw [row, turns, Sink.fitting_append_eq_self_iff, Sink.fitting_append_eq_self_iff] at fits
    exact absurd fits.2.1 cut
  · intro session output outcome shown said whole ih fits
    obtain ⟨row, stays, turns⟩ := line_of_say said
    rw [row, turns, Sink.fitting_append_eq_self_iff, Sink.fitting_append_eq_self_iff] at fits
    rw [ih fits.2.2, row, unread, unread, List.dropWhile_cons_of_pos (by simpa using stays)]

/-- The lines read by a session whose output does not fit: the prompt of each of them fits, and the
prompt behind the last of them does not. -/
def ReadWhileFitting (settings : Settings) (sink : Sink) (used : List Bytes) : Prop :=
  (∀ front, front <+: used → front ≠ used →
    sink.fitting (told settings front) = told settings front) ∧
  sink.fitting (told settings used) ≠ told settings used

theorem readWhileFitting_cons {settings : Settings} {sink : Sink} {line : Bytes} {text : String}
    (turns : ∀ later, told settings (line :: later) =
      Utf8.encode "> " ++ (Utf8.encode text ++ told settings later))
    (shown : sink.fitting (Utf8.encode "> ") = Utf8.encode "> ")
    (said : (sink.absorb (Utf8.encode "> ")).fitting (Utf8.encode text) = Utf8.encode text)
    {used : List Bytes}
    (later : ReadWhileFitting settings
      ((sink.absorb (Utf8.encode "> ")).absorb (Utf8.encode text)) used) :
    ReadWhileFitting settings sink (line :: used) := by
  obtain ⟨fitting, full⟩ := later
  refine ⟨?_, ?_⟩
  · intro front begins proper
    cases front with
    | nil => exact shown
    | cons first front =>
      obtain ⟨rfl, inner⟩ := List.cons_prefix_cons.mp begins
      rw [turns, Sink.fitting_append_eq_self_iff, Sink.fitting_append_eq_self_iff]
      refine ⟨shown, said, fitting front inner ?_⟩
      rintro rfl
      exact proper rfl
  · rw [turns, Ne, Sink.fitting_append_eq_self_iff, Sink.fitting_append_eq_self_iff]
    exact fun whole => full whole.2.2

/-- A session whose output does not fit has read the lines whose prompts fit, and no other. -/
theorem run_input_of_cut (settings : Settings) (session : Session)
    (useful : session.sink.atOnce ≠ some 0) (flushes : session.sink.flushFailure = none) :
    session.sink.fitting (told settings (Segment.splitAfter Feed.lineFeed session.input)) ≠
        told settings (Segment.splitAfter Feed.lineFeed session.input) →
      ∃ used rest, Segment.splitAfter Feed.lineFeed session.input = used ++ rest ∧
        (run settings session).2.input = rest.flatten ∧
        ReadWhileFitting settings session.sink used := by
  refine run_induction settings (motive := fun session outcome =>
    session.sink.fitting (told settings (Segment.splitAfter Feed.lineFeed session.input)) ≠
        told settings (Segment.splitAfter Feed.lineFeed session.input) →
      ∃ used rest, Segment.splitAfter Feed.lineFeed session.input = used ++ rest ∧
        outcome.2.input = rest.flatten ∧ ReadWhileFitting settings session.sink used)
    ?_ ?_ ?_ ?_ session useful flushes
  · intro session cut full
    refine ⟨[], _, rfl, (Segment.flatten_splitAfter _ _).symm, ?_, cut⟩
    intro front begins proper
    exact absurd (List.prefix_nil.mp begins) proper
  · intro session result shown left full
    refine absurd ?_ full
    rw [told, transcript_splitAfter, left]
    exact shown
  · intro session output shown said cut full
    obtain ⟨row, stays, turns⟩ := line_of_say said
    refine ⟨[_], _, row, (Segment.flatten_splitAfter _ _).symm, ?_, ?_⟩
    · intro front begins proper
      rcases List.prefix_cons_iff.mp begins with rfl | ⟨rest, rfl, inner⟩
      · exact shown
      · rw [List.prefix_nil.mp inner] at proper
        exact absurd rfl proper
    · rw [turns, Ne, Sink.fitting_append_eq_self_iff, Sink.fitting_append_eq_self_iff]
      exact fun whole => cut whole.2.1
  · intro session output outcome shown said whole ih full
    obtain ⟨row, stays, turns⟩ := line_of_say said
    rw [row, turns, Ne, Sink.fitting_append_eq_self_iff, Sink.fitting_append_eq_self_iff] at full
    obtain ⟨used, rest, split, left, reads⟩ := ih fun later => full ⟨shown, whole, later⟩
    refine ⟨_ :: used, rest, ?_, left, readWhileFitting_cons turns shown whole reads⟩
    rw [row, split, List.cons_append]

/-! ## With and without a limit -/

theorem output_unlimited (settings : Settings) (input : Bytes) :
    output settings .unlimited input =
      told settings (Segment.splitAfter Feed.lineFeed input) := by
  have written := (run_eq_transcript settings input Sink.unfailing_unlimited).2
  exact written

theorem output_unlimited_flatten (settings : Settings) {input : Bytes} {front back : List Bytes}
    (row : Segment.splitAfter Feed.lineFeed input = front ++ back) :
    output settings .unlimited front.flatten = told settings front := by
  rw [output_unlimited, Segment.splitAfter_flatten_front front row]

/-- A session with room for all its output prints and reads as if there were no limit.  With less
room it prints what there is room for and ends with the failure to write the rest; it has read the
lines whose prompts fit, and no other. -/
theorem limited_session_prints_what_fits (settings : Settings) (input : Bytes) (room : Nat)
    (atOnce : Option Nat) (useful : atOnce ≠ some 0) :
    ((output settings .unlimited input).length ≤ room →
      (run settings ⟨input, .ofRoom room atOnce⟩).1 = (run settings ⟨input, .unlimited⟩).1 ∧
      output settings (.ofRoom room atOnce) input = output settings .unlimited input ∧
      (run settings ⟨input, .ofRoom room atOnce⟩).2.input =
        (run settings ⟨input, .unlimited⟩).2.input) ∧
    (room < (output settings .unlimited input).length →
      (run settings ⟨input, .ofRoom room atOnce⟩).1 = .error (.failed .sinkFull) ∧
      output settings (.ofRoom room atOnce) input =
        (output settings .unlimited input).take room ∧
      ∃ used rest, Segment.splitAfter Feed.lineFeed input = used ++ rest ∧
        (run settings ⟨input, .ofRoom room atOnce⟩).2.input = rest.flatten ∧
        (∀ front, front <+: used → front ≠ used →
          (output settings .unlimited front.flatten).length ≤ room) ∧
        room < (output settings .unlimited used.flatten).length) := by
  have printing := run_eq_printed settings ⟨input, .ofRoom room atOnce⟩ useful rfl
  obtain ⟨result, final⟩ := Prod.mk.inj printing
  have written : output settings (.ofRoom room atOnce) input =
      (told settings (Segment.splitAfter Feed.lineFeed input)).take room :=
    congrArg Sink.written final
  have whole := (run_eq_transcript settings input Sink.unfailing_unlimited).1
  rw [output_unlimited]
  refine ⟨?_, ?_⟩
  · intro enough
    have fits : (Sink.ofRoom room atOnce).fitting _ = _ :=
      Sink.fitting_ofRoom_eq_self_iff.mpr enough
    refine ⟨?_, ?_, ?_⟩
    · rw [result, whole]
      exact if_pos fits
    · rw [written, List.take_of_length_le enough]
    · rw [run_input_of_fits settings ⟨input, .ofRoom room atOnce⟩ useful rfl fits,
        run_input_of_fits settings ⟨input, .unlimited⟩ nofun rfl rfl]
  · intro short
    have cut : (Sink.ofRoom room atOnce).fitting _ ≠ _ :=
      mt Sink.fitting_ofRoom_eq_self_iff.mp (Nat.not_le.mpr short)
    obtain ⟨used, rest, row, left, fitting, full⟩ :=
      run_input_of_cut settings ⟨input, .ofRoom room atOnce⟩ useful rfl cut
    refine ⟨?_, written, used, rest, row, left, ?_, ?_⟩
    · rw [result]
      exact if_neg cut
    · intro front begins proper
      obtain ⟨more, rfl⟩ := begins
      rw [List.append_assoc] at row
      rw [output_unlimited_flatten settings row]
      exact Sink.fitting_ofRoom_eq_self_iff.mp (fitting front (List.prefix_append _ _) proper)
    · rw [output_unlimited_flatten settings row]
      exact Nat.lt_of_not_le (mt Sink.fitting_ofRoom_eq_self_iff.mpr full)

/-- The answer to an unknown command is cut off, and that is not told as another such command. -/
theorem answer_is_cut_off_behind_ten_bytes :
    (run .standard ⟨Utf8.encode ".help\n.exit\n", .ofRoom 10 (some 3)⟩).1 =
        .error (.failed .sinkFull) ∧
      output .standard (.ofRoom 10 (some 3)) (Utf8.encode ".help\n.exit\n") =
        Utf8.encode "> error: u" := by
  have whole : output .standard .unlimited (Utf8.encode ".help\n.exit\n") =
      Utf8.encode "> error: unrecognized command '.help'\n> " := by
    rw [output_unlimited]
    decide +kernel
  have short : 10 < (output .standard .unlimited (Utf8.encode ".help\n.exit\n")).length := by
    rw [whole]
    decide +kernel
  obtain ⟨failed, written, -⟩ :=
    (limited_session_prints_what_fits .standard (Utf8.encode ".help\n.exit\n") 10 (some 3)
      (by decide)).2 short
  refine ⟨failed, ?_⟩
  rw [written, whole]
  decide +kernel

end Session

end PipeCodec
