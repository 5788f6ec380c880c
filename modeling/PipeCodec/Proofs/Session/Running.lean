import PipeCodec.Proofs.Link.Sending
import PipeCodec.Proofs.Session.Transcript

/-!
# Running a session

A session prompts, reads a line and prints, until it ends.  On a sink that takes bytes at all and
can be flushed, it prints its transcript as far as that fits; where it does not fit the session ends
with that failure and with no other.  So on a sink that never fails, the transcript is what is
printed and tells how the session ends.
-/

set_option autoImplicit false

namespace PipeCodec

structure Sink.Unfailing (sink : Sink) : Prop where
  endless : sink.room = none
  useful : sink.atOnce ≠ some 0
  flushes : sink.flushFailure = none

theorem Sink.Unfailing.fitting {sink : Sink} (unfailing : sink.Unfailing) (bytes : Bytes) :
    sink.fitting bytes = bytes := by
  rw [Sink.fitting, unfailing.endless]

namespace Session

/-! ## Printing into a sink -/

/-- How a session ends that has these bytes to print, and the sink then.  If not all of them fit,
that comes before any other end. -/
def printed (sink : Sink) (output : Bytes) (result : Except SessionError Unit) :
    Except SessionError Unit × Sink :=
  (if sink.fitting output = output then result else .error (.failed .sinkFull),
    sink.absorb (sink.fitting output))

theorem printed_append_of_fits {sink : Sink} {first : Bytes} (fits : sink.fitting first = first)
    (second : Bytes) (result : Except SessionError Unit) :
    printed sink (first ++ second) result = printed (sink.absorb first) second result := by
  have pieces : sink.fitting (first ++ second) =
      first ++ (sink.absorb first).fitting second := by
    rw [Sink.fitting_append, fits]
  simp only [printed, pieces, List.append_right_inj, Sink.absorb_absorb]

theorem printed_append_of_cut {sink : Sink} {first : Bytes} (cut : sink.fitting first ≠ first)
    (second : Bytes) (result : Except SessionError Unit) :
    printed sink (first ++ second) result =
      (.error (.failed .sinkFull), sink.absorb (sink.fitting first)) := by
  have short : sink.fitting (first ++ second) ≠ first ++ second :=
    fun whole => cut (Sink.fitting_append_eq_self_iff.mp whole).1
  rw [printed, if_neg short, Sink.fitting_append_of_cut cut]

theorem text_run (output : String) (sink : Sink) (useful : sink.atOnce ≠ some 0) :
    (Writing.text output).run.run sink =
      (if sink.fitting (Utf8.encode output) = Utf8.encode output then .ok () else .error .sinkFull,
        sink.absorb (sink.fitting (Utf8.encode output))) :=
  Sink.writeAll_eq (Utf8.encode output) sink useful

theorem showPrompt_run {sink : Sink} (useful : sink.atOnce ≠ some 0)
    (flushes : sink.flushFailure = none) :
    showPrompt.run.run sink =
      (if sink.fitting (Utf8.encode "> ") = Utf8.encode "> " then .ok () else .error .sinkFull,
        sink.absorb (sink.fitting (Utf8.encode "> "))) := by
  have shown : showPrompt = Connection.putLine (Utf8.encode "> ") := rfl
  rw [shown, Connection.putLine_run, Sink.writeAll_eq (Utf8.encode "> ") sink useful]
  by_cases fits : sink.fitting (Utf8.encode "> ") = Utf8.encode "> "
  · have still : (sink.absorb (sink.fitting (Utf8.encode "> "))).flushFailure = none := flushes
    simp only [if_pos fits, Sink.flush, still]
  · simp only [if_neg fits]

/-- A prompt that is not cut off uses one line. -/
theorem prompt_of_fits {session : Session} (useful : session.sink.atOnce ≠ some 0)
    (flushes : session.sink.flushFailure = none)
    (fits : session.sink.fitting (Utf8.encode "> ") = Utf8.encode "> ") :
    session.prompt =
      (Command.ofLine (Segment.cutAfter Feed.lineFeed session.input).1,
        ⟨(Segment.cutAfter Feed.lineFeed session.input).2,
          session.sink.absorb (Utf8.encode "> ")⟩) := by
  rw [prompt, showPrompt_run useful flushes, if_pos fits, fits]

theorem prompt_of_cut {session : Session} (useful : session.sink.atOnce ≠ some 0)
    (flushes : session.sink.flushFailure = none)
    (cut : session.sink.fitting (Utf8.encode "> ") ≠ Utf8.encode "> ") :
    session.prompt =
      (.error (.failed .sinkFull),
        ⟨session.input, session.sink.absorb (session.sink.fitting (Utf8.encode "> "))⟩) := by
  rw [prompt, showPrompt_run useful flushes, if_neg cut]

/-! ## From the transcript to runs -/

theorem fits_of_say {settings : Settings} {session : Session} {output : String}
    (useful : session.sink.atOnce ≠ some 0) (flushes : session.sink.flushFailure = none)
    (goesOn : react settings session.prompt.1 = .say output) :
    session.sink.fitting (Utf8.encode "> ") = Utf8.encode "> " := by
  by_contra cut
  rw [prompt_of_cut useful flushes cut] at goesOn
  cases goesOn

/-- What one turn of a session can be.  The prompt is cut off, the line ends the session, the answer
is cut off, or both are printed and the session goes on behind the line; what holds of each of these
ends, and is kept by a turn, holds of every run. -/
theorem run_induction (settings : Settings)
    {motive : Session → Except SessionError Unit × Session → Prop}
    (unshown : ∀ session : Session,
      session.sink.fitting (Utf8.encode "> ") ≠ Utf8.encode "> " →
      motive session (.error (.failed .sinkFull),
        ⟨session.input, session.sink.absorb (session.sink.fitting (Utf8.encode "> "))⟩))
    (leaves : ∀ (session : Session) (result : Except SessionError Unit),
      session.sink.fitting (Utf8.encode "> ") = Utf8.encode "> " →
      react settings (Command.ofLine (Segment.cutAfter Feed.lineFeed session.input).1) =
        .leave result →
      motive session (result, ⟨(Segment.cutAfter Feed.lineFeed session.input).2,
        session.sink.absorb (Utf8.encode "> ")⟩))
    (unsaid : ∀ (session : Session) (output : String),
      session.sink.fitting (Utf8.encode "> ") = Utf8.encode "> " →
      react settings (Command.ofLine (Segment.cutAfter Feed.lineFeed session.input).1) =
        .say output →
      (session.sink.absorb (Utf8.encode "> ")).fitting (Utf8.encode output) ≠
        Utf8.encode output →
      motive session (.error (.failed .sinkFull),
        ⟨(Segment.cutAfter Feed.lineFeed session.input).2,
          (session.sink.absorb (Utf8.encode "> ")).absorb
            ((session.sink.absorb (Utf8.encode "> ")).fitting (Utf8.encode output))⟩))
    (goesOn : ∀ (session : Session) (output : String)
      (outcome : Except SessionError Unit × Session),
      session.sink.fitting (Utf8.encode "> ") = Utf8.encode "> " →
      react settings (Command.ofLine (Segment.cutAfter Feed.lineFeed session.input).1) =
        .say output →
      (session.sink.absorb (Utf8.encode "> ")).fitting (Utf8.encode output) =
        Utf8.encode output →
      motive ⟨(Segment.cutAfter Feed.lineFeed session.input).2,
        (session.sink.absorb (Utf8.encode "> ")).absorb (Utf8.encode output)⟩ outcome →
      motive session outcome)
    (session : Session) (useful : session.sink.atOnce ≠ some 0)
    (flushes : session.sink.flushFailure = none) : motive session (run settings session) := by
  fun_induction run settings session with
  | case1 session prompted result left =>
    by_cases fits : session.sink.fitting (Utf8.encode "> ") = Utf8.encode "> "
    · have shown := prompt_of_fits useful flushes fits
      simp only [prompted, shown] at left ⊢
      exact leaves session result fits left
    · have shown := prompt_of_cut useful flushes fits
      simp only [prompted, shown, react] at left ⊢
      cases left
      exact unshown session fits
  | case2 session prompted output said cause sink put =>
    have fits := fits_of_say useful flushes said
    have shown := prompt_of_fits useful flushes fits
    simp only [prompted, shown] at said put ⊢
    rw [text_run output (session.sink.absorb (Utf8.encode "> ")) useful] at put
    split_ifs at put with whole
    · cases put
    · cases put
      exact unsaid session output fits said whole
  | case3 session prompted output said sink put ih =>
    have fits := fits_of_say useful flushes said
    have shown := prompt_of_fits useful flushes fits
    simp only [prompted, shown] at said put ih ⊢
    rw [text_run output (session.sink.absorb (Utf8.encode "> ")) useful] at put
    split_ifs at put with whole
    · cases put
      rw [whole] at ih ⊢
      exact goesOn session output _ fits said whole (ih useful flushes)
    · cases put

/-- After the prompt comes the answer, and then what the lines after it lead to. -/
theorem printed_of_say {settings : Settings} {session : Session} {output : String}
    (fits : session.sink.fitting (Utf8.encode "> ") = Utf8.encode "> ")
    (goesOn : react settings
      (Command.ofLine (Segment.cutAfter Feed.lineFeed session.input).1) = .say output) :
    printed session.sink
        (Utf8.encode (transcript settings (Segment.splitAfter Feed.lineFeed session.input)).1)
        (transcript settings (Segment.splitAfter Feed.lineFeed session.input)).2 =
      printed (session.sink.absorb (Utf8.encode "> "))
        (Utf8.encode output ++ Utf8.encode (transcript settings (Segment.splitAfter Feed.lineFeed
          (Segment.cutAfter Feed.lineFeed session.input).2)).1)
        (transcript settings (Segment.splitAfter Feed.lineFeed
          (Segment.cutAfter Feed.lineFeed session.input).2)).2 := by
  rw [transcript_splitAfter, goesOn]
  simp only [Utf8.encode_append, printed_append_of_fits fits]

/-- A run prints its transcript as far as that fits. -/
theorem run_eq_printed (settings : Settings) (session : Session)
    (useful : session.sink.atOnce ≠ some 0) (flushes : session.sink.flushFailure = none) :
    ((run settings session).1, (run settings session).2.sink) =
      printed session.sink
        (Utf8.encode (transcript settings (Segment.splitAfter Feed.lineFeed session.input)).1)
        (transcript settings (Segment.splitAfter Feed.lineFeed session.input)).2 := by
  refine run_induction settings (motive := fun session outcome =>
    (outcome.1, outcome.2.sink) = printed session.sink
      (Utf8.encode (transcript settings (Segment.splitAfter Feed.lineFeed session.input)).1)
      (transcript settings (Segment.splitAfter Feed.lineFeed session.input)).2)
    ?_ ?_ ?_ ?_ session useful flushes
  · intro session cut
    obtain ⟨later, begins⟩ := exists_transcript_eq settings
      (Segment.splitAfter Feed.lineFeed session.input)
    rw [begins, Utf8.encode_append, printed_append_of_cut cut]
  · intro session result fits left
    rw [transcript_splitAfter, left, printed, if_pos fits, fits]
  · intro session output fits said cut
    rw [printed_of_say fits said, printed_append_of_cut cut]
  · intro session output outcome fits said whole ih
    rw [printed_of_say fits said, printed_append_of_fits whole]
    exact ih

theorem run_eq_transcript (settings : Settings) (input : Bytes) {sink : Sink}
    (unfailing : sink.Unfailing) :
    (run settings ⟨input, sink⟩).1 =
        (transcript settings (Segment.splitAfter Feed.lineFeed input)).2 ∧
      (run settings ⟨input, sink⟩).2.sink.written =
        sink.written ++
          Utf8.encode (transcript settings (Segment.splitAfter Feed.lineFeed input)).1 := by
  have whole := run_eq_printed settings ⟨input, sink⟩ unfailing.useful unfailing.flushes
  rw [printed, unfailing.fitting, if_pos rfl] at whole
  obtain ⟨result, final⟩ := Prod.mk.inj whole
  exact ⟨result, congrArg Sink.written final⟩

/-- On a sink that never fails a session prints the transcript of its lines and ends as that says.
Every line that is answered is answered by one line, so there are as many line feeds as answers, and
nothing behind a line that ends the session matters. -/
theorem session_prints_the_transcript_of_its_lines (settings : Settings) (input : Bytes)
    (sink : Sink) (unfailing : sink.Unfailing) :
    ((run settings ⟨input, sink⟩).1 =
        (transcript settings (Segment.splitAfter Feed.lineFeed input)).2 ∧
      (run settings ⟨input, sink⟩).2.sink.written =
        sink.written ++
          Utf8.encode (transcript settings (Segment.splitAfter Feed.lineFeed input)).1) ∧
    ((∀ line ∈ Segment.splitAfter Feed.lineFeed input, ∀ entry, entry? line = some entry →
        entry ≠ "" → entry ≠ ".exit" →
        (Utf8.encode ("> " ++ reply settings entry)).count Feed.lineFeed = 1) ∧
      (run settings ⟨input, sink⟩).2.sink.written.count Feed.lineFeed =
        sink.written.count Feed.lineFeed +
          ((Segment.splitAfter Feed.lineFeed input).takeWhile fun line => ¬ Stops line).countP
            fun line => Answered line) ∧
    ∀ (other : Bytes) (before later otherLater : List Bytes) (line : Bytes), Stops line →
      Segment.splitAfter Feed.lineFeed input = before ++ line :: later →
      Segment.splitAfter Feed.lineFeed other = before ++ line :: otherLater →
      (run settings ⟨other, sink⟩).1 = (run settings ⟨input, sink⟩).1 ∧
        (run settings ⟨other, sink⟩).2.sink.written =
          (run settings ⟨input, sink⟩).2.sink.written := by
  obtain ⟨result, written⟩ := run_eq_transcript settings input unfailing
  refine ⟨⟨result, written⟩, ⟨?_, ?_⟩, ?_⟩
  · intro line among entry typed someChar staying
    exact count_lineFeed_reply settings someChar (oneLine_entry among typed)
  · rw [written, List.count_append, count_lineFeed_transcript]
    intro line among entry typed
    exact oneLine_entry among typed
  · intro other before later otherLater line stops lines otherLines
    obtain ⟨otherResult, otherWritten⟩ := run_eq_transcript settings other unfailing
    have same : transcript settings (Segment.splitAfter Feed.lineFeed other) =
        transcript settings (Segment.splitAfter Feed.lineFeed input) := by
      rw [lines, otherLines]
      exact transcript_of_stops settings stops before otherLater later
    rw [otherResult, otherWritten, result, written, same]
    exact ⟨rfl, rfl⟩

/-- A status, an empty line, an unknown command and the command to leave; whether an empty or a
malformed line comes after that makes no difference. -/
theorem session_leaves_the_rest_unread :
    ((run .standard
          ⟨Utf8.encode "StatusUpdate|5|\n\n.help\n.exit\n\n", ⟨[], none, some 3, none⟩⟩).1 =
        .ok () ∧
      (run .standard
          ⟨Utf8.encode "StatusUpdate|5|\n\n.help\n.exit\n\n",
            ⟨[], none, some 3, none⟩⟩).2.sink.written =
        Utf8.encode ("> Status(StatusUpdate \x7b code: 5, message: None \x7d)\n" ++
          "> > error: unrecognized command '.help'\n> ")) ∧
    (run .standard
        ⟨Utf8.encode "StatusUpdate|5|\n\n.help\n.exit\n" ++ [0xFF],
          ⟨[], none, some 3, none⟩⟩).1 = .ok () := by
  have unfailing : Sink.Unfailing ⟨[], none, some 3, none⟩ := ⟨rfl, nofun, rfl⟩
  obtain ⟨⟨result, written⟩, -, independent⟩ := session_prints_the_transcript_of_its_lines .standard
    (Utf8.encode "StatusUpdate|5|\n\n.help\n.exit\n\n") _ unfailing
  have told : transcript .standard (Segment.splitAfter Feed.lineFeed
        (Utf8.encode "StatusUpdate|5|\n\n.help\n.exit\n\n")) =
      ("> Status(StatusUpdate \x7b code: 5, message: None \x7d)\n" ++
        "> > error: unrecognized command '.help'\n> ", .ok ()) := by
    decide +kernel
  rw [told] at result written
  simp only [List.nil_append] at written
  refine ⟨⟨result, written⟩, ?_⟩
  have same := independent (Utf8.encode "StatusUpdate|5|\n\n.help\n.exit\n" ++ [0xFF])
    (Segment.splitAfter Feed.lineFeed (Utf8.encode "StatusUpdate|5|\n\n.help\n"))
    [[Feed.lineFeed]] [[0xFF]] (Utf8.encode ".exit\n")
    (by decide +kernel) (by decide +kernel) (by decide +kernel)
  exact same.1.trans result

end Session

end PipeCodec
