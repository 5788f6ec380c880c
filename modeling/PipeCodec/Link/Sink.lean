import PipeCodec.Failure

/-!
# Sinks

A sink takes bytes.  One write may take fewer than it is offered: at most so many at once, and at
most what room is left.  `writeAll` offers the rest again until all is taken, and fails when a
write takes nothing; what was taken before stays taken.
-/

set_option autoImplicit false

namespace PipeCodec

structure Sink where
  written : Bytes
  /-- How many bytes it still takes; no number means no limit. -/
  room : Option Nat
  /-- How many bytes one write takes at most. -/
  atOnce : Option Nat
  /-- Why flushing fails, if it does. -/
  flushFailure : Option Failure
  deriving DecidableEq

/-- Output that may fail; what the sink has taken stays in it. -/
abbrev Writing := ExceptT Failure (StateM Sink)

namespace Sink

/-- An empty sink that never fails. -/
def unlimited : Sink :=
  ⟨[], none, none, none⟩

/-- How many of the offered bytes one write takes. -/
def accepts (sink : Sink) (offered : Nat) : Nat :=
  min (min offered (sink.room.getD offered)) (sink.atOnce.getD offered)

/-- The sink after it has taken these bytes. -/
def absorb (sink : Sink) (bytes : Bytes) : Sink :=
  { sink with
    written := sink.written ++ bytes
    room := sink.room.map (· - bytes.length) }

def writeAll (bytes : Bytes) (sink : Sink) : Except Failure Unit × Sink :=
  if _done : bytes = [] then (.ok (), sink)
  else
    let count := sink.accepts bytes.length
    if _stuck : count = 0 then (.error .sinkFull, sink)
    else writeAll (bytes.drop count) (sink.absorb (bytes.take count))
termination_by bytes.length
decreasing_by
  have := List.length_pos_iff.mpr _done
  simp only [List.length_drop]
  omega

def flush (sink : Sink) : Except Failure Unit × Sink :=
  match sink.flushFailure with
  | some failure => (.error failure, sink)
  | none => (.ok (), sink)

end Sink

namespace Writing

def bytes (output : Bytes) : Writing Unit :=
  Sink.writeAll output

def text (output : String) : Writing Unit :=
  bytes (Utf8.encode output)

def flush : Writing Unit :=
  Sink.flush

end Writing

end PipeCodec
