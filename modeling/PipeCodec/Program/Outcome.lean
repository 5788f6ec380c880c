import PipeCodec.Program.Request
import PipeCodec.Schema.Basic
import PipeCodec.Session

/-!
# Outcomes

What a run of the program leaves behind: what it printed, what it reported, and how it ended.  The
files it may read are a function from paths to contents, its input is a list of bytes.
-/

set_option autoImplicit false

namespace PipeCodec

/-- How a run ends. -/
inductive Ending where
  | success
  | failure
  /-- The arguments ask for nothing that the program can do. -/
  | refused
  deriving DecidableEq

def Ending.code : Ending → Nat
  | success => 0
  | failure => 1
  | refused => 2

structure Outcome where
  printed : Bytes
  reported : Bytes
  ending : Ending
  deriving DecidableEq

namespace Outcome

def success (printed : String) : Outcome :=
  ⟨Utf8.encode printed, [], .success⟩

/-- A failure is reported with the cause and its parts. -/
def failure (printed : Bytes) (cause : String) : Outcome :=
  ⟨printed, Utf8.encode ("Error: " ++ cause ++ "\n"), .failure⟩

def usage : String :=
  "usage: pipemsg encode login [--username TEXT] [--password TEXT]\n" ++
  "       pipemsg encode status --code INT [--message TEXT]\n" ++
  "       pipemsg encode data --id INT [--payload TEXT] --size INT\n" ++
  "       pipemsg decode [--schema PATH] [--strict] WIRE\n" ++
  "       pipemsg schema [PATH]\n" ++
  "       pipemsg repl [--strict]\n" ++
  "       pipemsg --version\n"

def refused : Outcome :=
  ⟨[], Utf8.encode usage, .refused⟩

end Outcome

namespace Request

def versionLine : String :=
  "pipemsg 0.1.0\n"

def runEncode (message : Message) : Outcome :=
  match message.encode .standard with
  | .error cause => .failure [] cause.render
  | .ok bytes => ⟨bytes ++ [Feed.lineFeed], [], .success⟩

def runDecode (settings : Settings) (wire : String) : Outcome :=
  match Message.decode settings (Utf8.encode wire) with
  | .error cause => .failure [] cause.render
  | .ok message => .success (message.render ++ "\n")

/-- The schema is read first: its errors come before those of the message. -/
def runDecodeWith (schema : Except SchemaError Schema) (settings : Settings) (wire : String) :
    Outcome :=
  match schema with
  | .error cause => .failure [] cause.render
  | .ok schema =>
    match schema.decode settings (Utf8.encode wire) with
    | .error cause => .failure [] cause.render
    | .ok message => .success (message.display ++ "\n")

def runList (schema : Except SchemaError Schema) : Outcome :=
  match schema with
  | .error cause => .failure [] cause.render
  | .ok schema => .success schema.listing

def runSession (settings : Settings) (input : Bytes) : Outcome :=
  let (result, final) := Session.run settings ⟨input, .unlimited⟩
  match result with
  | .error cause => .failure final.sink.written cause.render
  | .ok () => ⟨final.sink.written, [], .success⟩

def run (files : Bytes → Except Failure Bytes) (input : Bytes) : Request → Outcome
  | version => .success versionLine
  | encode message => runEncode message
  | decode wire none settings => runDecode settings wire
  | decode wire (some path) settings => runDecodeWith (Schema.ofFile (files path)) settings wire
  | list none => runList Schema.builtin
  | list (some path) => runList (Schema.ofFile (files path))
  | session settings => runSession settings input

end Request

/-- A whole run: the arguments are read, and what they ask for is done. -/
def runProgram (files : Bytes → Except Failure Bytes) (input : Bytes) (arguments : List Bytes) :
    Outcome :=
  match Request.parse arguments with
  | none => .refused
  | some request => request.run files input

end PipeCodec
