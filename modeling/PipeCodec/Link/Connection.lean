import PipeCodec.Link.Feed
import PipeCodec.Link.Sink
import PipeCodec.Message

/-!
# Connections

A connection carries messages in both directions, one encoded message per line.  A message whose
wire form holds a line feed would not stay on its line and is refused before anything is written.
-/

set_option autoImplicit false

namespace PipeCodec

inductive LinkError where
  | wire (cause : WireError)
  /-- The encoded message holds a line feed. -/
  | lineFeedInside
  /-- The stream is at its end. -/
  | closed
  | failed (cause : Failure)
  deriving DecidableEq

def LinkError.message : LinkError → String
  | wire cause => "codec error: " ++ cause.message
  | lineFeedInside => "encoded message contains a newline"
  | closed => "stream closed"
  | failed cause => "Transport IO Error: " ++ cause.message

structure Connection where
  feed : Feed
  sink : Sink
  settings : Settings
  deriving DecidableEq

namespace Connection

/-- The line that carries a message. -/
def lineOf (settings : Settings) (message : Message) : Except LinkError Bytes :=
  match message.encode settings with
  | .error cause => .error (.wire cause)
  | .ok bytes =>
    if Feed.lineFeed ∈ bytes then .error .lineFeedInside else .ok (bytes ++ [Feed.lineFeed])

/-- The message that a line carries; the line may still have its end. -/
def ofLine (settings : Settings) (line : Bytes) : Except LinkError Message :=
  match line with
  | [] => .error .closed
  | byte :: rest =>
    match Message.decode settings
        (Segment.dropLineEnd Feed.lineFeed Feed.carriageReturn (byte :: rest)) with
    | .error cause => .error (.wire cause)
    | .ok message => .ok message

/-- Writes a line and flushes the sink. -/
def putLine (line : Bytes) : Writing Unit := do
  Writing.bytes line
  Writing.flush

def send (message : Message) (connection : Connection) : Except LinkError Unit × Connection :=
  match lineOf connection.settings message with
  | .error cause => (.error cause, connection)
  | .ok line =>
    let (result, sink) := (putLine line).run.run connection.sink
    match result with
    | .error cause => (.error (.failed cause), { connection with sink })
    | .ok () => (.ok (), { connection with sink })

def receive (connection : Connection) : Except LinkError Message × Connection :=
  let (result, feed) := connection.feed.nextLine
  match result with
  | .error cause => (.error (.failed cause), { connection with feed })
  | .ok line => (ofLine connection.settings line, { connection with feed })

/-- Opens the connection anew on a device that plays back what was written: fetched bytes are
dropped, and all that was written becomes the last delivery. Gives back the bytes written. -/
def playBack (connection : Connection) : Bytes × Connection :=
  let written := connection.sink.written
  (written,
    { connection with
      feed := ⟨[], connection.feed.deliveries ++ [.data written]⟩
      sink := { connection.sink with written := [] } })

end Connection

end PipeCodec
