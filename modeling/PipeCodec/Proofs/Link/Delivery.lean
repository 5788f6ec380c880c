import Mathlib.Data.List.DropRight
import PipeCodec.Proofs.Link.Receiving
import PipeCodec.Proofs.Link.Sending
import PipeCodec.Proofs.Message

/-!
# From sender to receiver

What a sender wrote reaches the receiver in deliveries of any size.  The receiver gets the messages
that were sent, in order and nothing else, then one answer for a line that was cut off, if there is
one, and then it learns that the stream is closed.  No wire form ends in a carriage return, so the
line end that the sender adds is all that the receiver drops.
-/

set_option autoImplicit false

namespace PipeCodec

/-- Deliveries that bring these bytes in pieces of any size, with interruptions anywhere, and then
report the end of the stream any number of times. -/
inductive Carries : Bytes → List Delivery → Prop
  | nothing : Carries [] []
  | ended {later : List Delivery} : Carries [] later → Carries [] (.data [] :: later)
  | interrupted {bytes : Bytes} {later : List Delivery} :
      Carries bytes later → Carries bytes (.interrupted :: later)
  | data {bytes : Bytes} {later : List Delivery} (chunk : Bytes) : chunk ≠ [] →
      Carries bytes later → Carries (chunk ++ bytes) (.data chunk :: later)

theorem Carries.items {bytes : Bytes} {deliveries : List Delivery}
    (carried : Carries bytes deliveries) :
    ∃ count, Feed.items ⟨[], deliveries⟩ = bytes.map .byte ++ List.replicate count .ended := by
  induction carried with
  | nothing => exact ⟨0, rfl⟩
  | ended carried ih =>
    obtain ⟨count, itemsExact⟩ := ih
    exact ⟨count + 1, congrArg (Item.ended :: ·) itemsExact⟩
  | interrupted carried ih => exact ih
  | @data bytes later chunk someByte carried ih =>
    obtain ⟨count, itemsExact⟩ := ih
    refine ⟨count, ?_⟩
    cases chunk with
    | nil => exact absurd rfl someByte
    | cons byte rest =>
      rw [List.map_append, List.append_assoc, ← itemsExact]
      rfl

namespace Stretch

theorem first_ended (count : Nat) : ∀ ends : Nat,
    first count (List.replicate ends .ended) = List.replicate count ⟨[], .ended⟩ := by
  induction count with
  | zero => intro ends; rfl
  | succ count ih =>
    intro ends
    cases ends with
    | zero => exact congrArg (⟨[], .ended⟩ :: ·) (ih 0)
    | succ ends => exact congrArg (⟨[], .ended⟩ :: ·) (ih ends)

theorem next_line {body : Bytes} (later : List Item) (absent : Feed.lineFeed ∉ body) :
    next ((body ++ [Feed.lineFeed]).map .byte ++ later) = (⟨body, .lineFeed⟩, later) := by
  rw [List.map_append, List.append_assoc, next_bytes _ absent, List.map_singleton,
    List.singleton_append, next_lineFeed, List.append_nil]

theorem next_unfinished {body : Bytes} (ends : Nat) (absent : Feed.lineFeed ∉ body) :
    next (body.map .byte ++ List.replicate ends .ended) =
      (⟨body, .ended⟩, List.replicate (ends - 1) .ended) := by
  rw [next_bytes _ absent]
  cases ends with
  | zero =>
    simp only [List.replicate_zero, next, List.append_nil]
    rfl
  | succ ends => simp only [List.replicate_succ, next, List.append_nil, Nat.add_sub_cancel]

theorem decode_ne_closed (settings : Settings) (bytes : Bytes) :
    decode settings bytes ≠ .error .closed := by
  rw [decode]
  intro closed
  split at closed
  · cases closed
  · cases closed

theorem decode_of_encode {writing : Settings} {sent : Message} {body : Bytes} (reading : Settings)
    (encoded : sent.encode writing = .ok body) : decode reading body = .ok sent.normalize := by
  have read := Message.decode_of_encode reading [] encoded
  rw [List.append_nil] at read
  rw [decode, read]

theorem message_of_encode {writing : Settings} {sent : Message} {body : Bytes} (reading : Settings)
    (encoded : sent.encode writing = .ok body) :
    message reading ⟨body, .lineFeed⟩ = .ok sent.normalize := by
  have last : body.getLast? ≠ some Feed.carriageReturn := by
    rw [Message.getLast?_of_encode encoded]
    decide
  rw [message, Segment.dropFinal_of_getLast? last, decode_of_encode reading encoded]

/-- The lines of messages that were sent read as those messages, whatever follows. -/
theorem messages_of_lines (writing reading : Settings) (later : List Item) (count : Nat)
    (sent : List Message)
    (lines : ∀ message ∈ sent, ∃ line, Connection.lineOf writing message = .ok line) :
    (first (sent.length + count)
        ((sent.flatMap (Connection.lineBytes writing)).map .byte ++ later)).map
        (message reading) =
      sent.map (fun message => .ok message.normalize) ++
        (first count later).map (message reading) := by
  induction sent with
  | nil => simp only [List.length_nil, Nat.zero_add, List.flatMap_nil, List.map_nil,
      List.nil_append]
  | cons message sent ih =>
    obtain ⟨line, carried⟩ := lines message List.mem_cons_self
    obtain ⟨body, rfl, absent, encoded⟩ := Connection.exists_body_of_lineOf carried
    have own := Connection.lineBytes_of_lineOf carried
    have rest := ih fun other member => lines other (List.mem_cons_of_mem message member)
    rw [List.length_cons, Nat.add_right_comm, first, List.flatMap_cons, own, List.map_append,
      List.append_assoc, next_line _ absent, List.map_cons, rest,
      message_of_encode reading encoded]
    rfl

/-- The answer to a line that no line feed closes, if there is such a line. -/
def answers (settings : Settings) : Bytes → List (Except LinkError Message)
  | [] => []
  | byte :: bytes => [decode settings (byte :: bytes)]

theorem messages_of_unfinished (reading : Settings) (ends count : Nat) {unfinished : Bytes}
    (absent : Feed.lineFeed ∉ unfinished) :
    (first ((answers reading unfinished).length + count)
        (unfinished.map .byte ++ List.replicate ends .ended)).map (message reading) =
      answers reading unfinished ++ List.replicate count (.error .closed) := by
  cases unfinished with
  | nil =>
    rw [List.map_nil, List.nil_append, first_ended, List.map_replicate]
    simp only [answers, List.length_nil, Nat.zero_add, List.nil_append, message]
  | cons byte rest =>
    have single : answers reading (byte :: rest) = [decode reading (byte :: rest)] := rfl
    rw [single, List.length_singleton, Nat.add_comm, first, next_unfinished ends absent,
      first_ended, List.map_cons, List.map_replicate]
    rfl

/-- Each line of bytes that arrive is decoded by itself, without its own end. -/
theorem messages_of_splitAfter (reading : Settings) (ends : Nat) (input : Bytes) :
    (first (Segment.splitAfter Feed.lineFeed input).length
        (input.map .byte ++ List.replicate ends .ended)).map (message reading) =
      (Segment.splitAfter Feed.lineFeed input).map fun line =>
        decode reading (Segment.dropLineEnd Feed.lineFeed Feed.carriageReturn line) := by
  induction input using Segment.segment_induction Feed.lineFeed with
  | unclosed input absent =>
    cases input with
    | nil => rfl
    | cons byte rest =>
      rw [Segment.splitAfter_of_notMem absent (List.cons_ne_nil byte rest), List.length_singleton,
        first, next_unfinished ends absent, List.map_singleton,
        Segment.dropLineEnd_of_notMem _ absent]
      rfl
  | closed before after absent ih =>
    have split : (before ++ Feed.lineFeed :: after).map Item.byte ++ List.replicate ends .ended =
        (before ++ [Feed.lineFeed]).map .byte ++
          (after.map .byte ++ List.replicate ends .ended) := by
      simp only [List.map_append, List.map_cons, List.map_nil, List.append_assoc,
        List.cons_append, List.nil_append]
    rw [Segment.splitAfter_append_mark after absent, List.length_cons, first, split,
      next_line _ absent, List.map_cons, List.map_cons, ih, Segment.dropLineEnd_append_lineFeed]
    rfl

theorem take_first (count more : Nat) : ∀ items : List Item,
    (first (more + count) items).take count = first count items := by
  induction count with
  | zero => intro items; exact List.take_zero
  | succ count ih =>
    intro items
    rw [← Nat.add_assoc, first, first, List.take_succ_cons, ih]

end Stretch

namespace Connection

def content (line : Bytes) : Bytes :=
  Segment.dropLineEnd Feed.lineFeed Feed.carriageReturn line

/-- The receive that meets a line decodes what that line carries. -/
theorem receiveTimes_of_splitAfter (settings : Settings) (sink : Sink) {input line : Bytes}
    {deliveries : List Delivery} (carried : Carries input deliveries) {before later : List Bytes}
    (lines : Segment.splitAfter Feed.lineFeed input = before ++ line :: later) :
    (receiveTimes (before.length + 1) ⟨⟨[], deliveries⟩, sink, settings⟩).1[before.length]? =
      some (Stretch.decode settings (content line)) := by
  obtain ⟨ends, itemsExact⟩ := carried.items
  have received := Stretch.messages_of_splitAfter settings ends input
  have length : (before ++ line :: later).length = later.length + (before.length + 1) := by
    rw [List.length_append, List.length_cons]
    omega
  rw [lines, length] at received
  rw [receiveTimes_eq_first, itemsExact, ← Stretch.take_first _ later.length, List.map_take,
    received, List.getElem?_take_of_lt (Nat.lt_succ_self _), List.getElem?_map,
    List.getElem?_append_right (Nat.le_refl _), Nat.sub_self, List.getElem?_cons_zero]
  rfl

def openLine (bytes : Bytes) : Bytes :=
  bytes.rtakeWhile (· != Feed.lineFeed)

theorem openLine_append {complete unfinished : Bytes} (closed : openLine complete = [])
    (absent : Feed.lineFeed ∉ unfinished) : openLine (complete ++ unfinished) = unfinished := by
  have ordinary := Segment.bne_of_notMem fun member => absent (List.mem_reverse.mp member)
  have stops : complete.reverse.takeWhile (· != Feed.lineFeed) = [] := by
    rw [← List.reverse_eq_nil_iff]
    exact closed
  rw [openLine, List.rtakeWhile, List.reverse_append, List.takeWhile_append_of_pos ordinary, stops,
    List.append_nil, List.reverse_reverse]

theorem openLine_lines {settings : Settings} (sent : List Message)
    (lines : ∀ message ∈ sent, ∃ line, lineOf settings message = .ok line) :
    openLine (sent.flatMap (lineBytes settings)) = [] := by
  by_cases none : sent = []
  · subst none
    rfl
  · obtain ⟨line, carried⟩ := lines (sent.getLast none) (List.getLast_mem none)
    obtain ⟨body, rfl, absent, encoded⟩ := exists_body_of_lineOf carried
    have own := lineBytes_of_lineOf carried
    have split : sent.flatMap (lineBytes settings) =
        (sent.dropLast.flatMap (lineBytes settings) ++ body) ++ [Feed.lineFeed] := by
      conv => lhs; rw [← List.dropLast_concat_getLast none]
      rw [List.flatMap_append, List.flatMap_singleton, own, List.append_assoc]
    rw [split, openLine, List.rtakeWhile_concat_neg _ _ _ (by simp)]

theorem CutOff.lineFeed_notMem {settings : Settings} {messages : List Message}
    {results : List (Except LinkError Unit)} {unfinished : Bytes}
    (cut : CutOff settings messages results unfinished) : Feed.lineFeed ∉ unfinished := by
  obtain ⟨message, line, among, carried, start, short⟩ := cut
  obtain ⟨body, rfl, absent, encoded⟩ := exists_body_of_lineOf carried
  rcases List.prefix_concat_iff.mp start with whole | inside
  · exact absurd whole short
  · exact fun member => absent (inside.subset member)

/-- The results of so many receives: the messages, then the last answers, then nothing but that the
stream is closed. -/
def arrivals (sent : List Message) (last : List (Except LinkError Message)) (count : Nat) :
    List (Except LinkError Message) :=
  List.take count
    (sent.map (fun message => .ok message.normalize) ++ last ++
      List.replicate count (.error .closed))

/-- All messages that were sent arrive, in order and nothing between them.  A line that was cut off
when the sink was full gives one more answer, and that is its message if only the line feed is
missing.  After that the stream is closed. -/
theorem sent_messages_arrive_in_order (messages : List Message) (writing reading : Settings)
    (feed : Feed) (room atOnce : Option Nat) (useful : atOnce ≠ some 0)
    {results : List (Except LinkError Unit)} {after : Connection}
    (run : sendAll messages ⟨feed, ⟨[], room, atOnce, none⟩, writing⟩ = (results, after))
    {deliveries : List Delivery} (carried : Carries after.sink.written deliveries) (sink : Sink) :
    ∃ last : List (Except LinkError Message),
      (∀ count, (receiveTimes count ⟨⟨[], deliveries⟩, sink, reading⟩).1 =
        arrivals (delivered messages results) last count) ∧
      (openLine after.sink.written = [] → last = []) ∧
      (openLine after.sink.written ≠ [] →
        CutOff writing messages results (openLine after.sink.written) ∧
        ∃ answer, last = [answer] ∧ answer ≠ .error .closed ∧
          ∀ cut, lineOf writing cut = .ok (openLine after.sink.written ++ [Feed.lineFeed]) →
            answer = .ok cut.normalize) := by
  have sent := sendAll_written messages ⟨feed, ⟨[], room, atOnce, none⟩, writing⟩ useful rfl
  rw [run] at sent
  obtain ⟨lines, unfinished, written, cut⟩ := sent
  have absent : Feed.lineFeed ∉ unfinished := by
    rcases cut with rfl | cut
    · exact List.not_mem_nil
    · exact cut.lineFeed_notMem
  have written : after.sink.written =
      (delivered messages results).flatMap (lineBytes writing) ++ unfinished := written
  have behind : openLine after.sink.written = unfinished := by
    rw [written]
    exact openLine_append (openLine_lines _ lines) absent
  obtain ⟨ends, itemsExact⟩ := carried.items
  rw [behind]
  refine ⟨Stretch.answers reading unfinished, ?_, ?_, ?_⟩
  · intro count
    rw [receiveTimes_eq_first, itemsExact, written, List.map_append, List.append_assoc,
      ← Stretch.take_first count
        ((delivered messages results).length + (Stretch.answers reading unfinished).length),
      List.map_take, Nat.add_assoc, Stretch.messages_of_lines writing reading _ _ _ lines,
      Stretch.messages_of_unfinished reading ends count absent, arrivals, List.append_assoc]
  · rintro rfl
    rfl
  · intro someByte
    refine ⟨cut.resolve_left someByte, ?_⟩
    cases unfinished with
    | nil => exact absurd rfl someByte
    | cons byte rest =>
      refine ⟨Stretch.decode reading (byte :: rest), rfl, ?_, ?_⟩
      · exact Stretch.decode_ne_closed reading (byte :: rest)
      · intro whole line
        obtain ⟨body, same, free, encoded⟩ := exists_body_of_lineOf line
        rw [List.append_cancel_right same]
        exact Stretch.decode_of_encode reading encoded

theorem packet_without_its_line_feed_arrives :
    (receiveTimes 3
      ⟨⟨[], [.data (Utf8.encode "LoginRequest|a||\nDat"), .interrupted,
        .data (Utf8.encode "aPacket|2||3|")]⟩, .unlimited, ⟨0, .exact⟩⟩).1 =
      [.ok (.login ⟨some "a", some ""⟩), .ok (.packet ⟨2, some "", 3⟩), .error .closed] := by
  -- The sink has room for all of the two lines but the last line feed.
  have run : sendAll
      [.login ⟨some "a", none⟩, .status ⟨1, some "x\ny"⟩, .packet ⟨2, none, 3⟩]
      ⟨⟨[], []⟩, ⟨[], some 33, some 5, none⟩, .standard⟩ =
      ([.ok (), .error .lineFeedInside, .error (.failed .sinkFull)],
        ⟨⟨[], []⟩, ⟨Utf8.encode "LoginRequest|a||\nDataPacket|2||3|", some 0, some 5, none⟩,
          .standard⟩) := by
    decide +kernel
  have carried : Carries (Utf8.encode "LoginRequest|a||\nDataPacket|2||3|")
      [.data (Utf8.encode "LoginRequest|a||\nDat"), .interrupted,
        .data (Utf8.encode "aPacket|2||3|")] := by
    have pieces : Utf8.encode "LoginRequest|a||\nDataPacket|2||3|" =
        Utf8.encode "LoginRequest|a||\nDat" ++ (Utf8.encode "aPacket|2||3|" ++ []) := by
      decide +kernel
    rw [pieces]
    exact .data _ (by decide +kernel) (.interrupted (.data _ (by decide +kernel) .nothing))
  obtain ⟨last, received, -, cut⟩ := sent_messages_arrive_in_order _ .standard ⟨0, .exact⟩ ⟨[], []⟩
    (some 33) (some 5) (by decide) run carried .unlimited
  have behind : openLine (Utf8.encode "LoginRequest|a||\nDataPacket|2||3|") =
      Utf8.encode "DataPacket|2||3|" := by
    decide +kernel
  obtain ⟨-, answer, rfl, -, whole⟩ := cut (by rw [behind]; decide +kernel)
  rw [received 3, whole (.packet ⟨2, none, 3⟩) (by rw [behind]; decide +kernel)]
  rfl

end Connection

end PipeCodec
