import PipeCodec.Link.Feed
import PipeCodec.Link.Sink
import PipeCodec.Message

/-!
# Sessions

A session reads commands, one per line, and prints an answer to each.  A line that begins with a
dot is a command to the session itself; any other is a message on the wire.  A mistyped command
and a message that cannot be decoded are answered and passed over; a failure of input or output
ends the session.
-/

set_option autoImplicit false

namespace PipeCodec

inductive SessionError where
  | unrecognized (command : String)
  | failed (cause : Failure)
  deriving DecidableEq

namespace SessionError

def message : SessionError → String
  | unrecognized command => "unrecognized command '" ++ command ++ "'"
  | failed cause => "IO error: " ++ cause.message

def render : SessionError → String
  | unrecognized command => applied "UnrecognizedCommand" (quote command)
  | failed cause => applied "Io" cause.render

end SessionError

inductive Command where
  /-- Leave; the end of the input says so too. -/
  | exit
  | decode (wire : String)
  deriving DecidableEq

/-- Whether the character can end a line. -/
def isLineEnd (c : Char) : Bool :=
  c == '\r' || c == '\n'

/-- The command on a line, all line ends at its end dropped; no bytes mean the end of the input. -/
def Command.ofLine (line : Bytes) : Except SessionError Command :=
  if line = [] then .ok .exit
  else
    match Utf8.decode? line with
    | none => .error (.failed .notText)
    | some text =>
      let command := Segment.dropEndWhile isLineEnd text.toList
      if command = ".exit".toList then .ok .exit
      else if command.head? = some '.' then .error (.unrecognized (String.ofList command))
      else .ok (.decode (String.ofList command))

structure Session where
  input : Bytes
  sink : Sink
  deriving DecidableEq

namespace Session

/-- Shows the prompt and makes sure that it is seen. -/
def showPrompt : Writing Unit := do
  Writing.text "> "
  Writing.flush

/-- Prompts for one command.  If the prompt cannot be shown no input is used; otherwise one line is,
whatever it holds. -/
def prompt (session : Session) : Except SessionError Command × Session :=
  match showPrompt.run.run session.sink with
  | (.error cause, sink) => (.error (.failed cause), { session with sink })
  | (.ok (), sink) =>
    let (line, input) := Segment.cutAfter Feed.lineFeed session.input
    (Command.ofLine line, ⟨input, sink⟩)

/-- What the session prints for a message on the wire. -/
def answer (settings : Settings) (wire : String) : String :=
  match Message.decode settings (Utf8.encode wire) with
  | .ok message => message.render
  | .error cause => "error: " ++ cause.message

/-- What a prompt leads to: an end of the session, or output before the next prompt. -/
inductive Reaction where
  | leave (result : Except SessionError Unit)
  | say (output : String)

/-- An empty line is answered by nothing, every other message or command by one line. -/
def react (settings : Settings) : Except SessionError Command → Reaction
  | .ok .exit => .leave (.ok ())
  | .ok (.decode wire) => .say (if wire = "" then "" else answer settings wire ++ "\n")
  | .error (.failed cause) => .leave (.error (.failed cause))
  | .error (.unrecognized command) =>
    .say ("error: " ++ (SessionError.unrecognized command).message ++ "\n")

theorem ofLine_nil : Command.ofLine [] = .ok .exit := rfl

/-- A prompt that does not end the session has used some input. -/
theorem prompt_shorter {settings : Settings} {session : Session} {output : String}
    (goes_on : react settings session.prompt.1 = .say output) :
    session.prompt.2.input.length < session.input.length := by
  unfold prompt at goes_on ⊢
  split
  · next cause sink shown => simp [shown, react] at goes_on
  · next sink shown =>
    apply Segment.cutAfter_shorter
    intro empty
    simp [shown, empty, Segment.cutAfter, ofLine_nil, react] at goes_on

/-- Prompts and answers until a command or a failure ends the session. -/
def run (settings : Settings) (session : Session) : Except SessionError Unit × Session :=
  let prompted := session.prompt
  match _goes_on : react settings prompted.1 with
  | .leave result => (result, prompted.2)
  | .say output =>
    match (Writing.text output).run.run prompted.2.sink with
    | (.error cause, sink) => (.error (.failed cause), { prompted.2 with sink })
    | (.ok (), sink) => run settings { prompted.2 with sink }
termination_by session.input.length
decreasing_by exact prompt_shorter _goes_on

end Session

end PipeCodec
