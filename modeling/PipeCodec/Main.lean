import PipeCodec.Program.Outcome

/-!
# The program

Arguments, standard input and files are handed to the pure program, and its outcome is written
out.  A session runs line by line, so that each answer is seen before the next line is typed.
-/

set_option autoImplicit false

namespace PipeCodec.Program

/-- Whether an error has this number; some come negated. -/
def hasNumber (found : UInt32) (cause : SystemCause) : Bool :=
  found.toInt32.toInt.natAbs = cause.number

/-- The cause behind an error of the system. -/
def failureOf : IO.Error → Failure
  | .noFileOrDirectory .. => .system .notFound
  | .inappropriateType _ number _ =>
    .system (if hasNumber number .isADirectory then .isADirectory else .notADirectory)
  | .invalidArgument _ number details =>
    if hasNumber number .nameTooLong then .system .nameTooLong else .reported details
  | error => .reported (toString error)

def readFile (path : Bytes) : IO (Except Failure Bytes) := do
  match Utf8.decode? path with
  | none => return .error (.system .notFound)
  | some name =>
    try
      let contents ← IO.FS.readBinFile ⟨name⟩
      return .ok contents.toList
    catch error => return .error (failureOf error)

def toArray (bytes : Bytes) : ByteArray :=
  ⟨bytes.toArray⟩

partial def readLine (input : IO.FS.Stream) (taken : Bytes) : IO Bytes := do
  let next ← input.read 1
  match next.toList with
  | [] => return taken.reverse
  | byte :: _ =>
    if byte = Feed.lineFeed then return (byte :: taken).reverse
    else readLine input (byte :: taken)

partial def converse (settings : Settings) (input output : IO.FS.Stream) :
    IO (Except SessionError Unit) := do
  output.write (toArray (Utf8.encode "> "))
  output.flush
  let line ← readLine input []
  match Session.react settings (Command.ofLine line) with
  | .leave result => return result
  | .say reply =>
    output.write (toArray (Utf8.encode reply))
    converse settings input output

def present (outcome : Outcome) : IO UInt32 := do
  (← IO.getStdout).write (toArray outcome.printed)
  (← IO.getStdout).flush
  (← IO.getStderr).write (toArray outcome.reported)
  return UInt32.ofNat outcome.ending.code

def runSession (settings : Settings) : IO Outcome := do
  match ← converse settings (← IO.getStdin) (← IO.getStdout) with
  | .error cause => return .failure [] cause.render
  | .ok () => return .success ""

/-- The path that a request reads, if any. -/
def pathOf : Request → Option Bytes
  | .decode _ path _ => path
  | .list path => path
  | _ => none

def runRequest (request : Request) : IO Outcome := do
  match request with
  | .session settings => runSession settings
  | request =>
    let contents ← match pathOf request with
      | none => pure (.error (.system .notFound))
      | some path => readFile path
    return request.run (fun _ => contents) []

end PipeCodec.Program

def main (arguments : List String) : IO UInt32 := do
  match PipeCodec.Request.parse (arguments.map PipeCodec.Utf8.encode) with
  | none => PipeCodec.Program.present .refused
  | some request => PipeCodec.Program.present (← PipeCodec.Program.runRequest request)
