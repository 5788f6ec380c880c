import PipeCodec.Message
import PipeCodec.Program.Arguments

/-!
# Requests

What the command line can ask for: to encode a record, to decode a message, to list a schema, to
hold a session, or to name the version.  Arguments that ask for none of these are refused.
-/

set_option autoImplicit false

namespace PipeCodec

inductive Request where
  | version
  | encode (message : Message)
  /-- Decode with the layouts of a schema file, or as a built-in message if no path is given. -/
  | decode (wire : String) (schema : Option Bytes) (settings : Settings)
  /-- List the layouts of a schema file, or the built-in ones if no path is given. -/
  | list (path : Option Bytes)
  | session (settings : Settings)
  deriving DecidableEq

namespace Request

def loginGrammar : Grammar :=
  ⟨[("username", .text), ("password", .text)], none⟩

def statusGrammar : Grammar :=
  ⟨[("code", .integer), ("message", .text)], none⟩

def packetGrammar : Grammar :=
  ⟨[("id", .integer), ("payload", .text), ("size", .integer)], none⟩

def decodeGrammar : Grammar :=
  ⟨[("schema", .path), ("strict", .flag)], some .text⟩

def listGrammar : Grammar :=
  ⟨[], some .path⟩

def sessionGrammar : Grammar :=
  ⟨[("strict", .flag)], none⟩

def settingsOf (arguments : Arguments) : Settings :=
  if arguments.hasFlag "strict" then Settings.standard.withExactIntegers else .standard

/-- The record named by the first argument, with its fields as options; integers must be given. -/
def parseRecord : List Bytes → Option Message
  | [] => none
  | name :: rest =>
    if name = Utf8.encode "login" then do
      let arguments ← Arguments.parse loginGrammar rest
      return .login ⟨arguments.text? "username", arguments.text? "password"⟩
    else if name = Utf8.encode "status" then do
      let arguments ← Arguments.parse statusGrammar rest
      return .status ⟨← arguments.integer? "code", arguments.text? "message"⟩
    else if name = Utf8.encode "data" then do
      let arguments ← Arguments.parse packetGrammar rest
      return .packet
        ⟨← arguments.integer? "id", arguments.text? "payload", ← arguments.integer? "size"⟩
    else none

def parseDecode (rest : List Bytes) : Option Request := do
  let arguments ← Arguments.parse decodeGrammar rest
  match arguments.operand with
  | some (.text wire) => return .decode wire (arguments.path? "schema") (settingsOf arguments)
  | _ => none

def parseList (rest : List Bytes) : Option Request := do
  let arguments ← Arguments.parse listGrammar rest
  match arguments.operand with
  | some (.path path) => return .list (some path)
  | _ => return .list none

def parseSession (rest : List Bytes) : Option Request := do
  let arguments ← Arguments.parse sessionGrammar rest
  return .session (settingsOf arguments)

/-- Whether the argument asks for the version: by name, or as the first of its letters. -/
def asksVersion (argument : Bytes) : Bool :=
  match Shape.ofArgument argument with
  | .named name none => name = Utf8.encode "version"
  | .short letters => letters.head? = some 0x56
  | _ => false

def parse : List Bytes → Option Request
  | [] => none
  | name :: rest =>
    if name = Utf8.encode "encode" then encode <$> parseRecord rest
    else if name = Utf8.encode "decode" then parseDecode rest
    else if name = Utf8.encode "schema" then parseList rest
    else if name = Utf8.encode "repl" then parseSession rest
    else if asksVersion name then some version
    else none

end Request

end PipeCodec
