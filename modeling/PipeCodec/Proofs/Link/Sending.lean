import Mathlib.Data.List.TakeDrop
import PipeCodec.Link.Connection

/-!
# Sending into a sink of limited room

A sink takes the part of its input that fits its room, however little it takes at once.  A message
whose line fits is sent, one whose line does not fit leaves the part that fits behind it, and from
then on the sink takes nothing.  So what was written is the lines of the messages sent, in order,
and then at most one line that was cut off.
-/

set_option autoImplicit false

namespace PipeCodec

namespace Sink

def fitting (sink : Sink) (bytes : Bytes) : Bytes :=
  match sink.room with
  | none => bytes
  | some room => bytes.take room

@[simp]
theorem absorb_nil (sink : Sink) : sink.absorb [] = sink := by
  obtain ⟨written, room, atOnce, flushFailure⟩ := sink
  cases room with
  | none => simp [absorb]
  | some room => simp [absorb]

theorem absorb_absorb (sink : Sink) (first second : Bytes) :
    (sink.absorb first).absorb second = sink.absorb (first ++ second) := by
  obtain ⟨written, room, atOnce, flushFailure⟩ := sink
  cases room with
  | none => simp [absorb]
  | some room => simp [absorb, Nat.sub_sub]

@[simp]
theorem fitting_nil (sink : Sink) : sink.fitting [] = [] := by
  rw [fitting]
  split
  · rfl
  · exact List.take_nil

/-- What fits of two pieces is what fits of the first and then of the second. -/
theorem fitting_append (sink : Sink) (first second : Bytes) :
    sink.fitting (first ++ second) =
      sink.fitting first ++ (sink.absorb (sink.fitting first)).fitting second := by
  obtain ⟨written, room, atOnce, flushFailure⟩ := sink
  cases room with
  | none => rfl
  | some room =>
    have left : room - first.length = room - (first.take room).length := by
      rw [List.length_take]
      omega
    simp only [fitting, absorb, Option.map_some, List.take_append, left]

theorem fitting_prefix (sink : Sink) (bytes : Bytes) : sink.fitting bytes <+: bytes := by
  rw [fitting]
  split
  · exact List.prefix_rfl
  · exact List.take_prefix _ bytes

theorem fitting_of_full {sink : Sink} (full : sink.room = some 0) (bytes : Bytes) :
    sink.fitting bytes = [] := by
  rw [fitting, full]
  exact List.take_zero

theorem fitting_eq_self_iff (sink : Sink) (bytes : Bytes) :
    sink.fitting bytes = bytes ↔ ∀ room, sink.room = some room → bytes.length ≤ room := by
  rw [fitting]
  cases sink.room with
  | none => simp
  | some room => simp

/-- Two pieces fit if the first does and then the second. -/
theorem fitting_append_eq_self_iff {sink : Sink} {first second : Bytes} :
    sink.fitting (first ++ second) = first ++ second ↔
      sink.fitting first = first ∧ (sink.absorb first).fitting second = second := by
  simp only [fitting_eq_self_iff, absorb, List.length_append]
  cases sink.room with
  | none => simp
  | some room =>
    simp only [Option.some.injEq, forall_eq', Option.map_some]
    omega

theorem fitting_take_accepts (sink : Sink) (bytes : Bytes) :
    sink.fitting (bytes.take (sink.accepts bytes.length)) =
      bytes.take (sink.accepts bytes.length) := by
  obtain ⟨written, room, atOnce, flushFailure⟩ := sink
  cases room with
  | none => rfl
  | some room =>
    simp only [fitting, accepts, Option.getD_some, List.take_take]
    congr 1
    omega

/-- A sink that takes some bytes at once is stuck only when its room is used up. -/
theorem room_of_stuck {sink : Sink} {bytes : Bytes} (useful : sink.atOnce ≠ some 0)
    (someByte : bytes ≠ []) (stuck : sink.accepts bytes.length = 0) : sink.room = some 0 := by
  have positive := List.length_pos_iff.mpr someByte
  have atLeastOne : 0 < sink.atOnce.getD bytes.length := by
    cases once : sink.atOnce with
    | none => exact positive
    | some count =>
      refine Nat.pos_of_ne_zero ?_
      rintro rfl
      exact useful once
  rw [accepts] at stuck
  cases limit : sink.room with
  | none =>
    rw [limit, Option.getD_none] at stuck
    omega
  | some room =>
    rw [limit, Option.getD_some] at stuck
    congr 1
    omega

theorem room_of_cut {sink : Sink} {bytes : Bytes} (cut : sink.fitting bytes ≠ bytes) :
    (sink.absorb (sink.fitting bytes)).room = some 0 := by
  obtain ⟨written, room, atOnce, flushFailure⟩ := sink
  cases room with
  | none => exact absurd rfl cut
  | some room =>
    have short : room < bytes.length :=
      Nat.lt_of_not_le fun enough => cut (List.take_of_length_le enough)
    simp only [absorb, fitting, Option.map_some, List.length_take]
    congr 1
    omega

/-- Where the first of two pieces is cut, nothing is taken of the second. -/
theorem fitting_append_of_cut {sink : Sink} {first : Bytes} (cut : sink.fitting first ≠ first)
    (second : Bytes) : sink.fitting (first ++ second) = sink.fitting first := by
  rw [fitting_append, fitting_of_full (room_of_cut cut), List.append_nil]

theorem writeAll_eq (bytes : Bytes) (sink : Sink) (useful : sink.atOnce ≠ some 0) :
    sink.writeAll bytes =
      (if sink.fitting bytes = bytes then .ok () else .error .sinkFull,
        sink.absorb (sink.fitting bytes)) := by
  fun_induction writeAll bytes sink with
  | case1 sink => simp
  | case2 bytes sink someByte count stuck =>
    have used := room_of_stuck useful someByte stuck
    rw [fitting_of_full used, if_neg (Ne.symm someByte), absorb_nil]
  | case3 bytes sink someByte count goesOn ih =>
    -- What one write takes fits, so the rest decides whether all of it does.
    have whole := List.take_append_drop count bytes
    have fits : sink.fitting bytes = bytes.take count ++
        (sink.absorb (bytes.take count)).fitting (bytes.drop count) := by
      have pieces := sink.fitting_append (bytes.take count) (bytes.drop count)
      rw [whole, fitting_take_accepts] at pieces
      exact pieces
    have same : (sink.absorb (bytes.take count)).fitting (bytes.drop count) = bytes.drop count ↔
        sink.fitting bytes = bytes := by
      rw [fits, ← List.append_right_inj (bytes.take count), whole]
    rw [ih useful, absorb_absorb, ← fits]
    simp only [same]

end Sink

/-! ## One message -/

namespace Connection

theorem exists_body_of_lineOf {settings : Settings} {message : Message} {line : Bytes}
    (carried : lineOf settings message = .ok line) :
    ∃ body, line = body ++ [Feed.lineFeed] ∧ Feed.lineFeed ∉ body ∧
      message.encode settings = .ok body := by
  rw [lineOf] at carried
  split at carried
  · cases carried
  · next body encoded =>
    split at carried
    · cases carried
    · next absent =>
      cases carried
      exact ⟨body, rfl, absent, encoded⟩

theorem putLine_run (line : Bytes) (sink : Sink) :
    (putLine line).run.run sink =
      match sink.writeAll line with
      | (.error cause, moved) => (.error cause, moved)
      | (.ok (), moved) => moved.flush := by
  have unfolded : (putLine line).run.run sink =
      (Writing.bytes line >>= fun _ => Writing.flush).run.run sink := rfl
  rw [unfolded, ExceptT.run_bind, StateT.run_bind]
  have wrote : (Writing.bytes line).run.run sink = sink.writeAll line := rfl
  rw [wrote]
  rcases sink.writeAll line with ⟨result, moved⟩
  cases result with
  | error cause => rfl
  | ok done => rfl

def flushed (connection : Connection) : Except LinkError Unit :=
  match connection.sink.flushFailure with
  | none => .ok ()
  | some cause => .error (.failed cause)

/-- What fits of a line is written, and only a line that fits as a whole is flushed. -/
theorem send_eq_flushed (message : Message) (connection : Connection)
    (useful : connection.sink.atOnce ≠ some 0) :
    connection.send message =
      match lineOf connection.settings message with
      | .error cause => (.error cause, connection)
      | .ok line =>
        (if connection.sink.fitting line = line then connection.flushed
          else .error (.failed .sinkFull),
          { connection with
            sink := connection.sink.absorb (connection.sink.fitting line) }) := by
  rw [send]
  cases lineOf connection.settings message with
  | error cause => rfl
  | ok line =>
    have kept : (connection.sink.absorb (connection.sink.fitting line)).flushFailure =
        connection.sink.flushFailure := rfl
    simp only [putLine_run, Sink.writeAll_eq line connection.sink useful]
    by_cases fits : connection.sink.fitting line = line
    · simp only [if_pos fits, Sink.flush, flushed, kept]
      cases connection.sink.flushFailure with
      | none => rfl
      | some cause => rfl
    · simp only [if_neg fits]

/-- A message is sent if its line fits, and otherwise the part of it that fits is written. -/
theorem send_eq (message : Message) (connection : Connection)
    (useful : connection.sink.atOnce ≠ some 0) (flushes : connection.sink.flushFailure = none) :
    connection.send message =
      match lineOf connection.settings message with
      | .error cause => (.error cause, connection)
      | .ok line =>
        (if connection.sink.fitting line = line then .ok () else .error (.failed .sinkFull),
          { connection with
            sink := connection.sink.absorb (connection.sink.fitting line) }) := by
  have done : connection.flushed = .ok () := by
    rw [flushed, flushes]
  rw [send_eq_flushed message connection useful, done]

/-! ## Many messages -/

def sendAll : List Message → Connection → List (Except LinkError Unit) × Connection
  | [], connection => ([], connection)
  | message :: messages, connection =>
    let (result, moved) := connection.send message
    let (results, final) := sendAll messages moved
    (result :: results, final)

def delivered : List Message → List (Except LinkError Unit) → List Message
  | message :: messages, .ok () :: results => message :: delivered messages results
  | _ :: messages, .error _ :: results => delivered messages results
  | _, _ => []

def lineBytes (settings : Settings) (message : Message) : Bytes :=
  match lineOf settings message with
  | .error _ => []
  | .ok line => line

theorem lineBytes_of_lineOf {settings : Settings} {message : Message} {line : Bytes}
    (carried : lineOf settings message = .ok line) : lineBytes settings message = line := by
  rw [lineBytes, carried]

theorem sendAll_full (messages : List Message) (connection : Connection)
    (useful : connection.sink.atOnce ≠ some 0) (flushes : connection.sink.flushFailure = none)
    (full : connection.sink.room = some 0) :
    (sendAll messages connection).2 = connection ∧
      delivered messages (sendAll messages connection).1 = [] := by
  induction messages with
  | nil => exact ⟨rfl, rfl⟩
  | cons message messages ih =>
    have refused : ∃ cause, connection.send message = (.error cause, connection) := by
      rw [send_eq message connection useful flushes]
      cases carried : lineOf connection.settings message with
      | error cause => exact ⟨cause, rfl⟩
      | ok line =>
        obtain ⟨body, rfl, absent, encoded⟩ := exists_body_of_lineOf carried
        refine ⟨.failed .sinkFull, ?_⟩
        simp only [Sink.fitting_of_full full, Sink.absorb_nil]
        rw [if_neg (Ne.symm (List.concat_ne_nil _ _))]
    obtain ⟨cause, sent⟩ := refused
    simp only [sendAll, sent, delivered]
    exact ih

/-- A proper part of the line of some message that found the sink full. -/
def CutOff (settings : Settings) (messages : List Message)
    (results : List (Except LinkError Unit)) (unfinished : Bytes) : Prop :=
  ∃ message line, (message, .error (.failed .sinkFull)) ∈ messages.zip results ∧
    lineOf settings message = .ok line ∧ unfinished <+: line ∧ unfinished ≠ line

theorem CutOff.cons {settings : Settings} {messages : List Message}
    {results : List (Except LinkError Unit)} {unfinished : Bytes}
    (cut : CutOff settings messages results unfinished) (message : Message)
    (result : Except LinkError Unit) :
    CutOff settings (message :: messages) (result :: results) unfinished := by
  obtain ⟨other, line, among, rest⟩ := cut
  exact ⟨other, line, List.mem_cons_of_mem _ among, rest⟩

/-- After a run the sink holds the lines of the messages sent and at most one cut off line. -/
theorem sendAll_written (messages : List Message) : ∀ connection : Connection,
    connection.sink.atOnce ≠ some 0 → connection.sink.flushFailure = none →
    (∀ message ∈ delivered messages (sendAll messages connection).1,
      ∃ line, lineOf connection.settings message = .ok line) ∧
    ∃ unfinished,
      (sendAll messages connection).2.sink.written = connection.sink.written ++
        ((delivered messages (sendAll messages connection).1).flatMap
          (lineBytes connection.settings) ++ unfinished) ∧
      (unfinished = [] ∨
        CutOff connection.settings messages (sendAll messages connection).1 unfinished) := by
  induction messages with
  | nil =>
    intro connection useful flushes
    exact ⟨fun message member => absurd member List.not_mem_nil, [], by simp [sendAll, delivered],
      Or.inl rfl⟩
  | cons message messages ih =>
    intro connection useful flushes
    have sent := send_eq message connection useful flushes
    cases carried : lineOf connection.settings message with
    | error cause =>
      rw [carried] at sent
      simp only [sendAll, sent, delivered]
      obtain ⟨lines, unfinished, written, cut⟩ := ih connection useful flushes
      exact ⟨lines, unfinished, written, cut.imp_right fun cut => cut.cons message _⟩
    | ok line =>
      have own := lineBytes_of_lineOf carried
      simp only [carried] at sent
      by_cases fits : connection.sink.fitting line = line
      · rw [if_pos fits, fits] at sent
        simp only [sendAll, sent, delivered]
        obtain ⟨lines, unfinished, written, cut⟩ :=
          ih { connection with sink := connection.sink.absorb line } useful flushes
        refine ⟨?_, unfinished, ?_, cut.imp_right fun cut => cut.cons message _⟩
        · intro other member
          rcases List.mem_cons.mp member with rfl | among
          · exact ⟨line, carried⟩
          · exact lines other among
        · rw [written, List.flatMap_cons, own, Sink.absorb]
          simp only [List.append_assoc]
      · -- The sink is full from here on, so no later message adds to it.
        rw [if_neg fits] at sent
        simp only [sendAll, sent, delivered]
        obtain ⟨unchanged, none⟩ := sendAll_full messages
          { connection with sink := connection.sink.absorb (connection.sink.fitting line) }
          useful flushes (Sink.room_of_cut fits)
        rw [none, unchanged]
        refine ⟨fun message member => absurd member List.not_mem_nil,
          connection.sink.fitting line, rfl, Or.inr ?_⟩
        exact ⟨message, line, List.mem_cons_self, carried, connection.sink.fitting_prefix line, fits⟩

end Connection

end PipeCodec
