import PipeCodec.Program.Outcome
import PipeCodec.Proofs.Link.Delivery
import PipeCodec.Proofs.Message.Encoding
import PipeCodec.Proofs.Session.Running
import PipeCodec.Proofs.Text.Lines

/-!
# The answer to each line

A session says something to each line between two prompts, and the lines before it have no part in
that as long as none of them ends the session.  What it decodes is what a connection takes from the
same line, without the carriage returns that are left at the end.  A wire form ends in the delimiter
and begins with a letter, so it is never cut, never a command and never an empty line: encoded
messages that are typed into a session come back.
-/

set_option autoImplicit false

namespace PipeCodec.Session

/-! ## What was typed -/

def dot : UInt8 := 0x2E

/-- What a line carries, without carriage returns at its end. -/
def typed (line : Bytes) : Bytes :=
  (Connection.content line).rdropWhile (· = Feed.carriageReturn)

theorem exists_entry {line : Bytes} {text : String} (absent : Feed.lineFeed ∉ line.dropLast)
    (valid : Utf8.decode? line = some text) :
    ∃ entry, entry? line = some entry ∧ Utf8.encode entry = typed line := by
  refine ⟨String.ofList (text.toList.rdropWhile fun c => c = '\r' ∨ c = '\n'), ?_, ?_⟩
  · exact congrArg (Option.map _) valid
  · have bytes : Utf8.encodeChars text.toList = line := Utf8.encode_of_decode? valid
    rw [Utf8.encode, String.toList_ofList, Utf8.encodeChars_rdropWhile, bytes]
    exact Segment.rdropWhile_lineEnd Feed.carriageReturn absent

theorem typed_of_getLast? {line : Bytes}
    (bare : (Connection.content line).getLast? ≠ some Feed.carriageReturn) :
    typed line = Connection.content line := by
  apply List.rdropWhile_eq_self_iff.mpr
  intro someByte last
  apply bare
  rw [List.getLast?_eq_some_getLast someByte, of_decide_eq_true last]

section Entries

variable {line : Bytes} {entry : String}

theorem stops_iff (found : entry? line = some entry) (same : Utf8.encode entry = typed line) :
    Stops line ↔ typed line = Utf8.encode ".exit" := by
  rw [Stops, found, ← same]
  constructor
  · rintro (none | leaves)
    · cases none
    · rw [Option.some.inj leaves]
  · intro leaves
    exact Or.inr (congrArg some (Utf8.encode_injective leaves))

theorem head?_eq_dot_iff (same : Utf8.encode entry = typed line) :
    (typed line).head? = some dot ↔ entry.toList.head? = some '.' := by
  rw [← same]
  exact Utf8.head?_encode_iff (c := '.') (by decide) entry

theorem typed_eq_nil_iff (same : Utf8.encode entry = typed line) :
    typed line = [] ↔ entry = "" := by
  rw [← same]
  constructor
  · intro nothing
    exact Utf8.encode_injective nothing
  · rintro rfl
    rfl

/-- An entry that is neither empty nor a command is answered by what it decodes to. -/
theorem reply_eq_answer (settings : Settings) (same : Utf8.encode entry = typed line)
    (someByte : typed line ≠ []) (undotted : (typed line).head? ≠ some dot) :
    reply settings entry = answer settings entry ++ "\n" := by
  rw [Ne, typed_eq_nil_iff same] at someByte
  rw [Ne, head?_eq_dot_iff same] at undotted
  rw [reply, if_neg someByte, if_neg undotted, answer]
  cases Message.decode settings (Utf8.encode entry) with
  | ok message => rfl
  | error cause => rfl

theorem ofLine_eq_decode_iff (someByte : line ≠ []) (found : entry? line = some entry)
    (same : Utf8.encode entry = typed line) (wire : String) :
    Command.ofLine line = .ok (.decode wire) ↔
      Utf8.encode wire = typed line ∧ (typed line).head? ≠ some dot := by
  rw [ofLine_eq someByte, found, Ne, head?_eq_dot_iff same, ← same]
  constructor
  · intro decoded
    dsimp only at decoded
    split_ifs at decoded with leaves dotted
    · cases decoded
    · cases decoded
      exact ⟨rfl, dotted⟩
  · rintro ⟨bytes, undotted⟩
    have stays : entry ≠ ".exit" := by
      rintro rfl
      exact undotted rfl
    simp only [if_neg stays, if_neg undotted, Utf8.encode_injective bytes]

end Entries

/-! ## Turns -/

def turn (settings : Settings) (line : Bytes) : String :=
  match entry? line with
  | none => "> "
  | some entry => "> " ++ reply settings entry

theorem turn_of_entry (settings : Settings) {line : Bytes} {entry : String}
    (found : entry? line = some entry) :
    turn settings line = "> " ++ reply settings entry := by
  rw [turn, found]

/-- Lines that do not end the session are answered one by one, and then come the others. -/
theorem transcript_append (settings : Settings) {before : List Bytes} (later : List Bytes)
    (goesOn : ∀ line ∈ before, ¬ Stops line) :
    transcript settings (before ++ later) =
      (String.join (before.map (turn settings)) ++ (transcript settings later).1,
        (transcript settings later).2) := by
  induction before with
  | nil => simp
  | cons line before ih =>
    obtain ⟨own, others⟩ := List.forall_mem_cons.mp goesOn
    rw [Stops, not_or] at own
    obtain ⟨entry, found⟩ := Option.ne_none_iff_exists'.mp own.1
    have stays : entry ≠ ".exit" := by
      rintro rfl
      exact own.2 found
    rw [List.cons_append, transcript, found]
    simp only [if_neg stays, ih others, List.map_cons, String.join_cons,
      turn_of_entry settings found, String.append_assoc]

def output (settings : Settings) (sink : Sink) (input : Bytes) : Bytes :=
  (run settings ⟨input, sink⟩).2.sink.written

theorem output_flatten (settings : Settings) {sink : Sink} (unfailing : sink.Unfailing)
    {row : List Bytes} (lines : Segment.splitAfter Feed.lineFeed row.flatten = row) :
    output settings sink row.flatten =
      sink.written ++ Utf8.encode (transcript settings row).1 := by
  have written := (run_eq_transcript settings row.flatten unfailing).2
  rw [lines] at written
  exact written

/-- The line is answered by this text: the text stands behind what is printed when the input ends
before the line, and all that the lines after it lead to comes later. -/
def Answers (settings : Settings) (sink : Sink) (input : Bytes) (before : List Bytes)
    (line : Bytes) (text : String) : Prop :=
  output settings sink (before ++ [line]).flatten =
      output settings sink before.flatten ++ Utf8.encode (text ++ "\n" ++ "> ") ∧
    output settings sink (before ++ [line]).flatten <+: output settings sink input

section Lines

variable {settings : Settings} {sink : Sink} {input line : Bytes} {before later : List Bytes}

theorem mem_of_lines (lines : Segment.splitAfter Feed.lineFeed input = before ++ line :: later) :
    line ∈ Segment.splitAfter Feed.lineFeed input := by
  rw [lines]
  exact List.mem_append_right before List.mem_cons_self

theorem mem_of_mem_before {earlier : Bytes}
    (lines : Segment.splitAfter Feed.lineFeed input = before ++ later)
    (member : earlier ∈ before) : earlier ∈ Segment.splitAfter Feed.lineFeed input := by
  rw [lines]
  exact List.mem_append_left later member

/-- What is printed for lines that do not end the session when the input ends behind them. -/
theorem output_of_goesOn (unfailing : sink.Unfailing)
    (lines : Segment.splitAfter Feed.lineFeed input = before ++ later)
    (goesOn : ∀ earlier ∈ before, ¬ Stops earlier) :
    output settings sink before.flatten =
      sink.written ++ Utf8.encode (String.join (before.map (turn settings)) ++ "> ") := by
  have told := transcript_append settings [] goesOn
  rw [List.append_nil] at told
  rw [output_flatten settings unfailing (Segment.splitAfter_flatten_front before lines), told]
  rfl

theorem output_prefix (unfailing : sink.Unfailing)
    (lines : Segment.splitAfter Feed.lineFeed input = before ++ later)
    (goesOn : ∀ earlier ∈ before, ¬ Stops earlier) :
    output settings sink before.flatten <+: output settings sink input := by
  obtain ⟨more, begins⟩ := exists_transcript_eq settings later
  have told := (run_eq_transcript settings input unfailing).2
  rw [lines, transcript_append settings later goesOn, begins] at told
  refine ⟨Utf8.encode more, ?_⟩
  rw [output_of_goesOn unfailing lines goesOn, output, told]
  simp only [Utf8.encode_append, List.append_assoc]

theorem answers_of_turn (unfailing : sink.Unfailing)
    (lines : Segment.splitAfter Feed.lineFeed input = before ++ line :: later)
    (goesOn : ∀ earlier ∈ before, ¬ Stops earlier) (own : ¬ Stops line) {text : String}
    (told : turn settings line = "> " ++ (text ++ "\n")) :
    Answers settings sink input before line text := by
  have through := lines
  rw [List.append_cons] at through
  have bothGoOn : ∀ earlier ∈ before ++ [line], ¬ Stops earlier := by
    intro earlier among
    rcases List.mem_append.mp among with inside | last
    · exact goesOn earlier inside
    · rwa [List.mem_singleton.mp last]
  refine ⟨?_, output_prefix unfailing through bothGoOn⟩
  rw [output_of_goesOn unfailing through bothGoOn, output_of_goesOn unfailing lines goesOn]
  simp only [List.map_append, List.map_singleton, String.join_append, String.join_cons,
    String.join_nil, told, Utf8.encode_append, List.append_assoc]
  rfl

end Lines

/-! ## Lines of a text -/

section Texts

variable {settings : Settings} {sink : Sink} {input line : Bytes} {before later : List Bytes}
  {text : String}

theorem exists_entry_of_mem (valid : Utf8.decode? input = some text)
    (among : line ∈ Segment.splitAfter Feed.lineFeed input) :
    ∃ entry, entry? line = some entry ∧ Utf8.encode entry = typed line := by
  obtain ⟨own, read⟩ := Utf8.exists_text_of_mem_splitAfter valid among
  exact exists_entry (Segment.notMem_dropLast_of_mem_splitAfter among) read

theorem not_stops_of_typed (valid : Utf8.decode? input = some text)
    (among : line ∈ Segment.splitAfter Feed.lineFeed input)
    (stays : typed line ≠ Utf8.encode ".exit") : ¬ Stops line := by
  obtain ⟨entry, found, same⟩ := exists_entry_of_mem valid among
  rwa [stops_iff found same]

theorem prompt_at_line (unfailing : sink.Unfailing)
    (lines : Segment.splitAfter Feed.lineFeed input = before ++ line :: later) :
    (prompt ⟨(line :: later).flatten, sink⟩).1 = Command.ofLine line := by
  have rest := Segment.splitAfter_flatten_back before lines
  have someByte : (line :: later).flatten ≠ [] := by
    intro nothing
    rw [nothing] at rest
    cases rest
  rw [Segment.splitAfter_eq_cons someByte] at rest
  rw [prompt_of_fits unfailing.useful unfailing.flushes (unfailing.fitting _),
    (List.cons.inj rest).1]

/-- A line of text is answered by what it decodes to, unless it is empty or a command. -/
theorem answers_of_typed (unfailing : sink.Unfailing) (valid : Utf8.decode? input = some text)
    (lines : Segment.splitAfter Feed.lineFeed input = before ++ line :: later)
    (stays : ∀ earlier ∈ before, typed earlier ≠ Utf8.encode ".exit") {wire : String}
    (same : Utf8.encode wire = typed line) (someByte : typed line ≠ [])
    (undotted : (typed line).head? ≠ some dot) :
    Answers settings sink input before line (answer settings wire) := by
  obtain ⟨entry, found, written⟩ := exists_entry_of_mem valid (mem_of_lines lines)
  obtain rfl : entry = wire := Utf8.encode_injective (written.trans same.symm)
  refine answers_of_turn unfailing lines ?_ ?_ ?_
  · intro earlier member
    exact not_stops_of_typed valid (mem_of_mem_before lines member) (stays earlier member)
  · apply not_stops_of_typed valid (mem_of_lines lines)
    intro leaves
    rw [leaves] at undotted
    exact undotted rfl
  · rw [turn_of_entry settings found, reply_eq_answer settings same someByte undotted]

end Texts

/-- Every line of a text is received by itself, and a session decodes what is received without the
carriage returns that are left at its end.  Where none is left, whatever the receiver makes of the
line is the answer: the message, or the error in decoding. -/
theorem session_and_connection_read_alike (settings : Settings) {input : Bytes} {text : String}
    (valid : Utf8.decode? input = some text) {deliveries : List Delivery}
    (carried : Carries input deliveries) (device sink : Sink) (unfailing : sink.Unfailing)
    {before later : List Bytes} {line : Bytes}
    (lines : Segment.splitAfter Feed.lineFeed input = before ++ line :: later) :
    ∃ received : Except LinkError Message,
      ((Connection.receiveTimes (before.length + 1)
          ⟨⟨[], deliveries⟩, device, settings⟩).1[before.length]? = some received ∧
        received = Stretch.decode settings (Connection.content line)) ∧
      ((∀ wire, (prompt ⟨(line :: later).flatten, sink⟩).1 = .ok (.decode wire) ↔
          Utf8.encode wire = typed line ∧ (typed line).head? ≠ some dot) ∧
        ∀ wire, (prompt ⟨(line :: later).flatten, sink⟩).1 = .ok (.decode wire) → wire ≠ "" →
          (∀ earlier ∈ before, typed earlier ≠ Utf8.encode ".exit") →
          Answers settings sink input before line (answer settings wire)) ∧
      ((∀ other ∈ Segment.splitAfter Feed.lineFeed input,
          (Connection.content other).getLast? ≠ some Feed.carriageReturn) →
        (∀ earlier ∈ before, Connection.content earlier ≠ Utf8.encode ".exit") →
        Connection.content line ≠ [] → (Connection.content line).head? ≠ some dot →
        (∃ message, received = .ok message ∧
          Answers settings sink input before line message.render) ∨
        ∃ cause, received = .error (.wire cause) ∧
          Answers settings sink input before line ("error: " ++ cause.message)) := by
  obtain ⟨entry, found, same⟩ := exists_entry_of_mem valid (mem_of_lines lines)
  have someByte := Segment.ne_nil_of_mem_splitAfter (mem_of_lines lines)
  have prompted : ∀ wire, (prompt ⟨(line :: later).flatten, sink⟩).1 = .ok (.decode wire) ↔
      Utf8.encode wire = typed line ∧ (typed line).head? ≠ some dot := by
    intro wire
    rw [prompt_at_line unfailing lines]
    exact ofLine_eq_decode_iff someByte found same wire
  refine ⟨Stretch.decode settings (Connection.content line),
    ⟨Connection.receiveTimes_of_splitAfter settings device carried lines, rfl⟩,
    ⟨prompted, ?_⟩, ?_⟩
  · intro wire decoded someChar stays
    obtain ⟨written, undotted⟩ := (prompted wire).mp decoded
    exact answers_of_typed unfailing valid lines stays written
      (mt (typed_eq_nil_iff written).mp someChar) undotted
  · intro bare stays someContent undotted
    have kept : ∀ other ∈ Segment.splitAfter Feed.lineFeed input,
        typed other = Connection.content other :=
      fun other among => typed_of_getLast? (bare other among)
    have whole := kept line (mem_of_lines lines)
    have answered : Answers settings sink input before line (answer settings entry) := by
      refine answers_of_typed unfailing valid lines ?_ same ?_ ?_
      · intro earlier member
        rw [kept earlier (mem_of_mem_before lines member)]
        exact stays earlier member
      · rwa [whole]
      · rwa [whole]
    rw [answer, same, whole] at answered
    rw [Stretch.decode]
    cases decoded : Message.decode settings (Connection.content line) with
    | ok message =>
      rw [decoded] at answered
      exact Or.inl ⟨message, rfl, answered⟩
    | error cause =>
      rw [decoded] at answered
      exact Or.inr ⟨cause, rfl, answered⟩

/-- The line end of the first line comes in two deliveries, and the last line has none. -/
theorem malformed_status_is_told_by_both :
    (Connection.receiveTimes 3
        ⟨⟨[], [.data (Utf8.encode "LoginRequest|a||\r"), .interrupted,
          .data (Utf8.encode "\n.help\nStatusUpdate|x|")]⟩, .unlimited, ⟨0, .exact⟩⟩).1[2]? =
      some (.error (.wire (.malformedInteger "code" "x"))) ∧
    Answers ⟨0, .exact⟩ .unlimited (Utf8.encode "LoginRequest|a||\r\n.help\nStatusUpdate|x|")
      [Utf8.encode "LoginRequest|a||\r\n", Utf8.encode ".help\n"]
      (Utf8.encode "StatusUpdate|x|")
      ("error: " ++ (WireError.malformedInteger "code" "x").message) := by
  have valid : Utf8.decode? (Utf8.encode "LoginRequest|a||\r\n.help\nStatusUpdate|x|") =
      some "LoginRequest|a||\r\n.help\nStatusUpdate|x|" := Utf8.decode?_encode _
  have carried : Carries (Utf8.encode "LoginRequest|a||\r\n.help\nStatusUpdate|x|")
      [.data (Utf8.encode "LoginRequest|a||\r"), .interrupted,
        .data (Utf8.encode "\n.help\nStatusUpdate|x|")] := by
    have pieces : Utf8.encode "LoginRequest|a||\r\n.help\nStatusUpdate|x|" =
        Utf8.encode "LoginRequest|a||\r" ++ (Utf8.encode "\n.help\nStatusUpdate|x|" ++ []) := by
      decide +kernel
    rw [pieces]
    exact .data _ (by decide +kernel) (.interrupted (.data _ (by decide +kernel) .nothing))
  have lines : Segment.splitAfter Feed.lineFeed
      (Utf8.encode "LoginRequest|a||\r\n.help\nStatusUpdate|x|") =
      [Utf8.encode "LoginRequest|a||\r\n", Utf8.encode ".help\n"] ++
        [Utf8.encode "StatusUpdate|x|"] := by
    decide +kernel
  obtain ⟨received, ⟨found, decoded⟩, -, alike⟩ := session_and_connection_read_alike ⟨0, .exact⟩
    valid carried .unlimited .unlimited ⟨rfl, nofun, rfl⟩ lines
  have refused : Stretch.decode ⟨0, .exact⟩ (Connection.content (Utf8.encode "StatusUpdate|x|")) =
      .error (.wire (.malformedInteger "code" "x")) := by
    decide +kernel
  rw [refused] at decoded
  refine ⟨by rw [← decoded]; exact found, ?_⟩
  rcases alike (by decide +kernel) (by decide +kernel) (by decide +kernel) (by decide +kernel) with
    ⟨message, read, -⟩ | ⟨cause, read, answered⟩
  · rw [decoded] at read
    cases read
  · rw [decoded] at read
    cases read
    exact answered

/-! ## Encoded messages -/

section Encoded

variable {writing : Settings} {message : Message} {body : Bytes}

theorem typed_of_encode (encoded : message.encode writing = .ok body) :
    typed (body ++ [Feed.lineFeed]) = body := by
  have last : body.getLast? ≠ some Feed.carriageReturn := by
    rw [Message.getLast?_of_encode encoded]
    decide
  have carries : Connection.content (body ++ [Feed.lineFeed]) = body := by
    rw [Connection.content, Segment.dropLineEnd_append_lineFeed, Segment.dropFinal_of_getLast? last]
  rw [typed_of_getLast? (by rwa [carries]), carries]

theorem exists_head?_tag (message : Message) :
    ∃ letter, (Utf8.encode message.tag).head? = some letter ∧ letter ≠ dot := by
  cases message with
  | login record =>
    have begins : (Utf8.encode (Record.tag Login)).head? = some 0x4C := by decide +kernel
    exact ⟨0x4C, begins, by decide⟩
  | status record =>
    have begins : (Utf8.encode (Record.tag Status)).head? = some 0x53 := by decide +kernel
    exact ⟨0x53, begins, by decide⟩
  | packet record =>
    have begins : (Utf8.encode (Record.tag Packet)).head? = some 0x44 := by decide +kernel
    exact ⟨0x44, begins, by decide⟩

theorem undotted_of_encode (encoded : message.encode writing = .ok body) :
    body.head? ≠ some dot := by
  obtain ⟨letter, begins, other⟩ := exists_head?_tag message
  have named : message.toLabelled.name = message.tag := rfl
  rw [Message.eq_wire_of_encode encoded, LabelledMessage.wire, LabelledMessage.spans,
    List.flatMap_cons, Wire.closeSpan, List.append_assoc, List.head?_append, named, begins]
  intro dotted
  exact other (Option.some.inj dotted)

theorem exists_entry_of_encode (encoded : message.encode writing = .ok body)
    (single : Feed.lineFeed ∉ body) :
    ∃ entry, entry? (body ++ [Feed.lineFeed]) = some entry ∧ Utf8.encode entry = body := by
  obtain ⟨text, written⟩ := Message.exists_text_of_encode encoded
  have read : Utf8.decode? (body ++ [Feed.lineFeed]) = some (text ++ "\n") := by
    rw [written, ← Utf8.decode?_encode (text ++ "\n"), Utf8.encode_append]
    rfl
  obtain ⟨entry, found, same⟩ := exists_entry (by rwa [List.dropLast_concat]) read
  rw [typed_of_encode encoded] at same
  exact ⟨entry, found, same⟩

theorem not_stops_of_encode (encoded : message.encode writing = .ok body)
    (single : Feed.lineFeed ∉ body) : ¬ Stops (body ++ [Feed.lineFeed]) := by
  obtain ⟨entry, found, same⟩ := exists_entry_of_encode encoded single
  have bare := typed_of_encode encoded
  rw [stops_iff found (same.trans bare.symm), bare]
  rintro rfl
  exact undotted_of_encode encoded rfl

theorem turn_of_encode (reading : Settings) (encoded : message.encode writing = .ok body)
    (single : Feed.lineFeed ∉ body) :
    turn reading (body ++ [Feed.lineFeed]) = "> " ++ message.normalize.render ++ "\n" := by
  obtain ⟨entry, found, same⟩ := exists_entry_of_encode encoded single
  have bare := typed_of_encode encoded
  have someByte : body ≠ [] := by
    rintro rfl
    cases Message.getLast?_of_encode encoded
  have decoded := Message.decode_of_encode reading [] encoded
  rw [List.append_nil] at decoded
  have undotted := undotted_of_encode encoded
  rw [← bare] at someByte undotted
  have replied := reply_eq_answer reading (same.trans bare.symm) someByte undotted
  rw [answer, same, decoded] at replied
  rw [turn_of_entry reading found, replied, String.append_assoc]

end Encoded

def OnLines (writing : Settings) (messages : List Message) (bodies : List Bytes) : Prop :=
  List.Forall₂ (fun message body => message.encode writing = .ok body ∧ Feed.lineFeed ∉ body)
    messages bodies

namespace OnLines

variable {writing : Settings} {messages : List Message} {bodies : List Bytes}

theorem forall_mem (encoded : OnLines writing messages bodies) {holds : Bytes → Prop}
    (each : ∀ (message : Message) (body : Bytes), message.encode writing = .ok body →
      Feed.lineFeed ∉ body → holds body) : ∀ body ∈ bodies, holds body := by
  induction encoded with
  | nil => nofun
  | cons own others ih => exact List.forall_mem_cons.mpr ⟨each _ _ own.1 own.2, ih⟩

theorem map_eq {α : Type} (encoded : OnLines writing messages bodies) {ofMessage : Message → α}
    {ofBody : Bytes → α}
    (each : ∀ (message : Message) (body : Bytes), message.encode writing = .ok body →
      Feed.lineFeed ∉ body → ofBody body = ofMessage message) :
    bodies.map ofBody = messages.map ofMessage := by
  induction encoded with
  | nil => rfl
  | cons own others ih => rw [List.map_cons, List.map_cons, each _ _ own.1 own.2, ih]

/-- Lines of wire forms are answered one by one, and none of them ends the session. -/
theorem transcript_eq (encoded : OnLines writing messages bodies) (reading : Settings) :
    transcript reading (bodies.map (· ++ [Feed.lineFeed])) =
      (String.join (messages.map fun message => "> " ++ message.normalize.render ++ "\n") ++ "> ",
        .ok ()) := by
  have goesOn : ∀ line ∈ bodies.map (· ++ [Feed.lineFeed]), ¬ Stops line := by
    rw [List.forall_mem_map]
    exact encoded.forall_mem fun message body written single => not_stops_of_encode written single
  have answered : (bodies.map (· ++ [Feed.lineFeed])).map (turn reading) =
      messages.map fun message => "> " ++ message.normalize.render ++ "\n" := by
    rw [List.map_map]
    exact encoded.map_eq fun message body written single => turn_of_encode reading written single
  have told := transcript_append reading [] goesOn
  rw [List.append_nil, answered] at told
  exact told

end OnLines

/-- Messages that were encoded, each on a line of its own, come back from a session in order, and
nothing else does.  Neither the capacity nor the integer rule of the session matters.  Those lines
are what the program prints when it encodes the messages. -/
theorem encoded_lines_come_back (writing reading : Settings) {messages : List Message}
    {bodies : List Bytes} (encoded : OnLines writing messages bodies) {sink : Sink}
    (unfailing : sink.Unfailing) :
    ((run reading ⟨bodies.flatMap (· ++ [Feed.lineFeed]), sink⟩).1 = .ok () ∧
      output reading sink (bodies.flatMap (· ++ [Feed.lineFeed])) =
        sink.written ++ Utf8.encode (String.join
          (messages.map fun message => "> " ++ message.normalize.render ++ "\n") ++ "> ")) ∧
    (writing = .standard → ∀ (files : Bytes → Except Failure Bytes) (input : Bytes),
      bodies.flatMap (· ++ [Feed.lineFeed]) =
        messages.flatMap fun message => ((Request.encode message).run files input).printed) := by
  have single : ∀ body ∈ bodies, Feed.lineFeed ∉ body :=
    encoded.forall_mem fun message body written single => single
  obtain ⟨result, told⟩ := run_eq_transcript reading (bodies.flatMap (· ++ [Feed.lineFeed]))
    unfailing
  rw [Segment.splitAfter_flatMap single, encoded.transcript_eq reading] at result told
  refine ⟨⟨result, told⟩, ?_⟩
  rintro rfl files input
  rw [List.flatMap_def, List.flatMap_def]
  congr 1
  apply encoded.map_eq
  intro message body written single
  rw [Request.run, Request.runEncode, written]

/-- Neither a command inside a text nor a carriage return at its end is taken for anything else. -/
theorem texts_with_line_ends_and_dots_come_back :
    (run ⟨0, .exact⟩
        ⟨Utf8.encode "LoginRequest|.exit|é\r|\nStatusUpdate|-5||\n",
          ⟨[], none, some 1, none⟩⟩).1 = .ok () ∧
    output ⟨0, .exact⟩ ⟨[], none, some 1, none⟩
        (Utf8.encode "LoginRequest|.exit|é\r|\nStatusUpdate|-5||\n") =
      Utf8.encode ("> Login(LoginRequest \x7b username: Some(\".exit\"), " ++
        "password: Some(\"é\\r\") \x7d)\n" ++
        "> Status(StatusUpdate \x7b code: -5, message: Some(\"\") \x7d)\n> ") := by
  have encoded : OnLines .standard [.login ⟨some ".exit", some "é\r"⟩, .status ⟨-5, none⟩]
      [Utf8.encode "LoginRequest|.exit|é\r|", Utf8.encode "StatusUpdate|-5||"] :=
    .cons (by decide +kernel) (.cons (by decide +kernel) .nil)
  have unfailing : Sink.Unfailing ⟨[], none, some 1, none⟩ := ⟨rfl, nofun, rfl⟩
  obtain ⟨⟨result, written⟩, -⟩ :=
    encoded_lines_come_back .standard ⟨0, .exact⟩ encoded unfailing
  have input : [Utf8.encode "LoginRequest|.exit|é\r|", Utf8.encode "StatusUpdate|-5||"].flatMap
      (· ++ [Feed.lineFeed]) =
      Utf8.encode "LoginRequest|.exit|é\r|\nStatusUpdate|-5||\n" := by
    decide +kernel
  rw [input] at result written
  have told : String.join ([.login ⟨some ".exit", some "é\r"⟩, .status ⟨-5, none⟩].map
        fun message : Message => "> " ++ message.normalize.render ++ "\n") ++ "> " =
      "> Login(LoginRequest \x7b username: Some(\".exit\"), " ++
        "password: Some(\"é\\r\") \x7d)\n" ++
        "> Status(StatusUpdate \x7b code: -5, message: Some(\"\") \x7d)\n> " := by
    decide +kernel
  have empty : (Sink.mk [] none (some 1) none).written = [] := rfl
  rw [told, empty, List.nil_append] at written
  exact ⟨result, written⟩

end PipeCodec.Session
