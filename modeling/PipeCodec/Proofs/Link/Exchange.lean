import PipeCodec.Proofs.Link.Receiving
import PipeCodec.Proofs.Link.Sending

/-!
# Sending and receiving in turn

On one connection sends and receives follow each other in any order.  A send touches the sink and a
receive touches the feed, so a run falls apart into its sends, which go as if nothing had been
received, and its receives, which go as if nothing had been sent.  After any run the sink holds what
fits of the lines of all messages that have one; a message without a line leaves no trace, and how
many bytes the sink takes at once makes no difference.
-/

set_option autoImplicit false

namespace PipeCodec.Connection

inductive Step where
  | send (message : Message)
  | receive
  deriving DecidableEq

inductive Report where
  | sent (result : Except LinkError Unit)
  | received (result : Except LinkError Message)

def Step.message? : Step → Option Message
  | send message => some message
  | receive => none

def Report.sent? : Report → Option (Except LinkError Unit)
  | sent result => some result
  | received _ => none

def Report.received? : Report → Option (Except LinkError Message)
  | sent _ => none
  | received result => some result

def step (connection : Connection) : Step → Report × Connection
  | .send message =>
    let (result, moved) := connection.send message
    (.sent result, moved)
  | .receive =>
    let (result, moved) := connection.receive
    (.received result, moved)

def runSteps : List Step → Connection → List Report × Connection
  | [], connection => ([], connection)
  | next :: later, connection =>
    let (report, moved) := connection.step next
    let (reports, final) := runSteps later moved
    (report :: reports, final)

/-! ## The side that writes -/

/-- Connections whose sends have the same results.  How many bytes a sink takes at once is left out,
as long as it takes any. -/
structure WritesAlike (left right : Connection) : Prop where
  settings : left.settings = right.settings
  written : left.sink.written = right.sink.written
  room : left.sink.room = right.sink.room
  flushFailure : left.sink.flushFailure = right.sink.flushFailure
  leftUseful : left.sink.atOnce ≠ some 0
  rightUseful : right.sink.atOnce ≠ some 0

theorem WritesAlike.fitting {left right : Connection} (alike : WritesAlike left right)
    (bytes : Bytes) : left.sink.fitting bytes = right.sink.fitting bytes := by
  rw [Sink.fitting, Sink.fitting, alike.room]

theorem WritesAlike.send {left right : Connection} (alike : WritesAlike left right)
    (message : Message) :
    (left.send message).1 = (right.send message).1 ∧
      WritesAlike (left.send message).2 (right.send message).2 := by
  have flushes : left.flushed = right.flushed := by
    rw [flushed, flushed, alike.flushFailure]
  rw [send_eq_flushed message left alike.leftUseful,
    send_eq_flushed message right alike.rightUseful, alike.settings]
  cases lineOf right.settings message with
  | error cause => exact ⟨rfl, alike⟩
  | ok line =>
    simp only [alike.fitting line, flushes]
    refine ⟨trivial, ?_⟩
    constructor
    · rfl
    · simp only [Sink.absorb, alike.written]
    · simp only [Sink.absorb, alike.room]
    · exact alike.flushFailure
    · exact alike.leftUseful
    · exact alike.rightUseful

theorem receive_eq_feed (connection : Connection) :
    connection.receive.2 = { connection with feed := connection.receive.2.feed } := by
  unfold receive
  rcases connection.feed.nextLine with ⟨result, feed⟩
  cases result with
  | error cause => rfl
  | ok line => rfl

theorem WritesAlike.receive {left right : Connection} (alike : WritesAlike left right) :
    WritesAlike left.receive.2 right := by
  rw [receive_eq_feed left]
  exact ⟨alike.settings, alike.written, alike.room, alike.flushFailure, alike.leftUseful,
    alike.rightUseful⟩

/-- The sends of a run go as they go on their own. -/
theorem WritesAlike.runSteps (steps : List Step) : ∀ {left right : Connection},
    WritesAlike left right →
    (Connection.runSteps steps left).1.filterMap Report.sent? =
        (sendAll (steps.filterMap Step.message?) right).1 ∧
      WritesAlike (Connection.runSteps steps left).2
        (sendAll (steps.filterMap Step.message?) right).2 := by
  induction steps with
  | nil =>
    intro left right alike
    exact ⟨rfl, alike⟩
  | cons next later ih =>
    intro left right alike
    cases next with
    | send message =>
      obtain ⟨same, still⟩ := alike.send message
      obtain ⟨results, after⟩ := ih still
      refine ⟨?_, after⟩
      simp only [Connection.runSteps, step, List.filterMap_cons, Report.sent?, Step.message?,
        sendAll, results, same]
    | receive => exact ih alike.receive

/-- The wire form of a message and a line feed; nothing if the message is refused or its wire form
does not stay on one line. -/
def wireLine (settings : Settings) (message : Message) : Bytes :=
  match message.encode settings with
  | .error _ => []
  | .ok body => if Feed.lineFeed ∈ body then [] else body ++ [Feed.lineFeed]

theorem send_eq_absorb (message : Message) (connection : Connection)
    (useful : connection.sink.atOnce ≠ some 0) :
    (connection.send message).2 =
      { connection with
        sink := connection.sink.absorb
          (connection.sink.fitting (wireLine connection.settings message)) } := by
  rw [send_eq_flushed message connection useful, lineOf, wireLine]
  cases message.encode connection.settings with
  | error cause => simp
  | ok body =>
    by_cases held : Feed.lineFeed ∈ body
    · simp [held]
    · simp [held]

theorem sendAll_eq_absorb (messages : List Message) : ∀ connection : Connection,
    connection.sink.atOnce ≠ some 0 →
    (sendAll messages connection).2 =
      { connection with
        sink := connection.sink.absorb
          (connection.sink.fitting (messages.flatMap (wireLine connection.settings))) } := by
  induction messages with
  | nil =>
    intro connection useful
    simp [sendAll]
  | cons message messages ih =>
    intro connection useful
    have sent := send_eq_absorb message connection useful
    have later := ih (connection.send message).2 (by rw [sent]; exact useful)
    rw [sent] at later
    rw [List.flatMap_cons, Sink.fitting_append, ← Sink.absorb_absorb]
    simp only [sendAll, sent]
    exact later

/-- After any run the sink has taken what fits of all lines, and has that much less room. -/
theorem runSteps_alike (steps : List Step) {connection : Connection}
    (useful : connection.sink.atOnce ≠ some 0) :
    WritesAlike (runSteps steps connection).2
      { connection with
        sink := connection.sink.absorb (connection.sink.fitting
          ((steps.filterMap Step.message?).flatMap (wireLine connection.settings))) } := by
  have itself : WritesAlike connection connection := ⟨rfl, rfl, rfl, rfl, useful, useful⟩
  rw [← sendAll_eq_absorb _ connection useful]
  exact (itself.runSteps steps).2

/-! ## The side that reads -/

theorem send_eq_sink (connection : Connection) (message : Message) :
    (connection.send message).2 =
      { connection with sink := (connection.send message).2.sink } := by
  unfold send
  cases lineOf connection.settings message with
  | error cause => rfl
  | ok line =>
    rcases put : (putLine line).run.run connection.sink with ⟨result, sink⟩
    simp only [put]
    cases result with
    | error cause => rfl
    | ok done => rfl

structure ReadsAlike (left right : Connection) : Prop where
  settings : left.settings = right.settings
  feed : left.feed = right.feed

theorem ReadsAlike.receive {left right : Connection} (alike : ReadsAlike left right) :
    left.receive.1 = right.receive.1 ∧ ReadsAlike left.receive.2 right.receive.2 := by
  obtain ⟨feed, sink, settings⟩ := left
  obtain ⟨otherFeed, otherSink, otherSettings⟩ := right
  obtain ⟨rfl, rfl⟩ := alike
  unfold Connection.receive
  rcases feed.nextLine with ⟨result, moved⟩
  cases result with
  | error cause => exact ⟨rfl, rfl, rfl⟩
  | ok line => exact ⟨rfl, rfl, rfl⟩

theorem ReadsAlike.send {left right : Connection} (alike : ReadsAlike left right)
    (message : Message) : ReadsAlike (left.send message).2 right := by
  rw [send_eq_sink left message]
  exact ⟨alike.settings, alike.feed⟩

/-- The receives of a run go as they go on their own. -/
theorem ReadsAlike.runSteps (steps : List Step) : ∀ {left right : Connection},
    ReadsAlike left right →
    (Connection.runSteps steps left).1.filterMap Report.received? =
      (receiveTimes (steps.count .receive) right).1 := by
  induction steps with
  | nil =>
    intro left right alike
    rfl
  | cons next later ih =>
    intro left right alike
    cases next with
    | send message =>
      have other : Step.send message ≠ .receive := nofun
      rw [List.count_cons_of_ne other]
      exact ih (alike.send message)
    | receive =>
      obtain ⟨same, still⟩ := alike.receive
      rw [List.count_cons_self]
      simp only [Connection.runSteps, step, List.filterMap_cons, Report.received?, receiveTimes,
        ih still, same]

/-! ## One send within a run -/

theorem runSteps_send (message : Message) (later before : List Step) : ∀ connection : Connection,
    (runSteps (before ++ .send message :: later) connection).1[before.length]? =
      some (.sent ((runSteps before connection).2.send message).1) := by
  induction before with
  | nil => intro connection; rfl
  | cons next before ih =>
    intro connection
    exact ih (connection.step next).2

theorem runSteps_concat (last : Step) (before : List Step) : ∀ connection : Connection,
    (runSteps (before ++ [last]) connection).2 =
      ((runSteps before connection).2.step last).2 := by
  induction before with
  | nil => intro connection; rfl
  | cons next before ih =>
    intro connection
    exact ih (connection.step next).2

theorem send_eq_ok_iff (message : Message) (connection : Connection)
    (useful : connection.sink.atOnce ≠ some 0) :
    (connection.send message).1 = .ok () ↔
      (∃ body, message.encode connection.settings = .ok body ∧ Feed.lineFeed ∉ body ∧
        connection.sink.fitting (body ++ [Feed.lineFeed]) = body ++ [Feed.lineFeed]) ∧
      connection.sink.flushFailure = none := by
  rw [send_eq_flushed message connection useful, lineOf]
  cases message.encode connection.settings with
  | error cause => simp
  | ok body =>
    by_cases held : Feed.lineFeed ∈ body
    · simp [held]
    · by_cases fits : connection.sink.fitting (body ++ [Feed.lineFeed]) = body ++ [Feed.lineFeed]
      · cases flushing : connection.sink.flushFailure with
        | none => simp [held, fits, flushed, flushing]
        | some cause => simp [held, fits, flushed, flushing]
      · simp [held, fits]

/-- A message that is refused before anything is written leaves the connection as it was. -/
theorem send_of_refused {message : Message} {connection : Connection} {cause : LinkError}
    (useful : connection.sink.atOnce ≠ some 0)
    (refused : (connection.send message).1 = .error cause)
    (early : ∀ failure, cause ≠ .failed failure) : (connection.send message).2 = connection := by
  rw [send_eq_flushed message connection useful] at refused ⊢
  cases carried : lineOf connection.settings message with
  | error other => rfl
  | ok line =>
    rw [carried] at refused
    simp only at refused
    split_ifs at refused with fits
    · unfold flushed at refused
      split at refused
      · cases refused
      · cases refused
        exact absurd rfl (early _)
    · cases refused
      exact absurd rfl (early _)

/-- A line fits if the room that was given holds it behind all that was written before. -/
theorem fitting_runSteps_iff {start : Connection} (empty : start.sink.written = [])
    (useful : start.sink.atOnce ≠ some 0) (before : List Step) (body : Bytes) :
    (runSteps before start).2.sink.fitting (body ++ [Feed.lineFeed]) = body ++ [Feed.lineFeed] ↔
      ∀ limit, start.sink.room = some limit →
        (runSteps before start).2.sink.written.length + (body.length + 1) ≤ limit := by
  have alike := runSteps_alike before useful
  rw [Sink.fitting_eq_self_iff, alike.room, alike.written]
  simp only [Sink.absorb, empty, List.nil_append, List.length_append, List.length_singleton]
  cases start.sink.room with
  | none => simp
  | some limit =>
    simp only [Option.map_some, Option.some.injEq, forall_eq']
    omega

/-- Whatever is sent and received in turn, the sink takes the lines of the messages that have one,
in order and as far as its room goes.  A refused message writes nothing, and a send succeeds exactly
if its line fits behind what was written before and flushing succeeds.  Neither receives nor the way
the sink takes its bytes matter to the sends, and the sends do not matter to the receives. -/
theorem exchange_writes_the_lines_that_fit (start : Connection) (empty : start.sink.written = [])
    (useful : start.sink.atOnce ≠ some 0) (steps : List Step) :
    (runSteps steps start).2.sink.written =
      start.sink.fitting ((steps.filterMap Step.message?).flatMap (wireLine start.settings)) ∧
    (∀ before message later, steps = before ++ .send message :: later →
      ∃ result, (runSteps steps start).1[before.length]? = some (.sent result) ∧
        (((∃ cause, result = .error (.wire cause)) ∨ result = .error .lineFeedInside) →
          (runSteps (before ++ [.send message]) start).2.sink.written =
            (runSteps before start).2.sink.written) ∧
        (result = .ok () ↔
          (∃ body, message.encode start.settings = .ok body ∧ Feed.lineFeed ∉ body ∧
            ∀ limit, start.sink.room = some limit →
              (runSteps before start).2.sink.written.length + (body.length + 1) ≤ limit) ∧
          start.sink.flushFailure = none)) ∧
    (∀ (other : Connection) (others : List Step), WritesAlike other start →
      others.filterMap Step.message? = steps.filterMap Step.message? →
      (runSteps others other).1.filterMap Report.sent? =
          (runSteps steps start).1.filterMap Report.sent? ∧
        (runSteps others other).2.sink.written = (runSteps steps start).2.sink.written) ∧
    ∀ other : Connection, ReadsAlike start other →
      (runSteps steps start).1.filterMap Report.received? =
        (receiveTimes (steps.count .receive) other).1 := by
  refine ⟨?_, ?_, ?_, fun other alike => alike.runSteps steps⟩
  · rw [(runSteps_alike steps useful).written, Sink.absorb, empty, List.nil_append]
  · rintro before message later rfl
    have alike := runSteps_alike before useful
    refine ⟨_, runSteps_send message later before start, ?_, ?_⟩
    · intro refused
      have unchanged : ((runSteps before start).2.send message).2 = (runSteps before start).2 := by
        rcases refused with ⟨cause, refused⟩ | refused
        · exact send_of_refused alike.leftUseful refused (by simp)
        · exact send_of_refused alike.leftUseful refused (by simp)
      rw [runSteps_concat]
      exact congrArg (·.sink.written) unchanged
    · rw [send_eq_ok_iff message _ alike.leftUseful, alike.settings, alike.flushFailure]
      simp only [fitting_runSteps_iff empty useful before]
      rfl
  · intro other others alike same
    have itself : WritesAlike start start := ⟨rfl, rfl, rfl, rfl, useful, useful⟩
    obtain ⟨otherSent, otherAfter⟩ := alike.runSteps others
    obtain ⟨sent, after⟩ := itself.runSteps steps
    rw [same] at otherSent otherAfter
    exact ⟨otherSent.trans sent.symm, otherAfter.written.trans after.written.symm⟩

/-- The sink has room for the first line and two bytes of the packet; the text with a line feed is
refused before that, and the last message finds no room. -/
theorem exchange_on_a_small_sink :
    (runSteps
      [.send (.login ⟨some "a", none⟩), .receive, .send (.status ⟨1, some "x\ny"⟩),
        .send (.packet ⟨2, none, 3⟩), .receive, .send (.status ⟨0, none⟩)]
      ⟨⟨[], [.data (Utf8.encode "StatusUpdate|5|\n")]⟩, ⟨[], some 19, some 4, none⟩,
        .standard⟩).2.sink.written = Utf8.encode "LoginRequest|a||\nDa" ∧
    (runSteps
      [.send (.login ⟨some "a", none⟩), .receive, .send (.status ⟨1, some "x\ny"⟩),
        .send (.packet ⟨2, none, 3⟩), .receive, .send (.status ⟨0, none⟩)]
      ⟨⟨[], [.data (Utf8.encode "StatusUpdate|5|\n")]⟩, ⟨[], some 19, some 4, none⟩,
        .standard⟩).1.filterMap Report.received? = [.ok (.status ⟨5, none⟩), .error .closed] := by
  obtain ⟨written, -, -, received⟩ := exchange_writes_the_lines_that_fit
    ⟨⟨[], [.data (Utf8.encode "StatusUpdate|5|\n")]⟩, ⟨[], some 19, some 4, none⟩, .standard⟩
    rfl (by decide)
    [.send (.login ⟨some "a", none⟩), .receive, .send (.status ⟨1, some "x\ny"⟩),
      .send (.packet ⟨2, none, 3⟩), .receive, .send (.status ⟨0, none⟩)]
  refine ⟨?_, ?_⟩
  · rw [written]
    decide +kernel
  · rw [received ⟨⟨[], [.data (Utf8.encode "StatusUpdate|5|\n")]⟩, .unlimited, .standard⟩
      ⟨rfl, rfl⟩, receiveTimes_eq_first]
    decide +kernel

end PipeCodec.Connection
