import PipeCodec.Field

/-!
# Records

A record type has a tag, an ordered list of fields, and a way to write and to read those fields.  On
the wire the tag comes first.  The three built-in record types follow.
-/

set_option autoImplicit false

namespace PipeCodec

class Record (α : Type) where
  tag : String
  fields : List Field
  /-- The values under their field names, in wire order. -/
  entries : α → List (String × Value)
  write : α → Framing Unit
  read : Reading α

namespace Record

variable {α : Type} [Record α]

def encode (settings : Settings) (record : α) : Except WireError Bytes :=
  (write record).finish (Frame.start (tag α) settings.capacity)

variable (α) in
def decode (settings : Settings) (bytes : Bytes) : Except WireError α := do
  let cursor ← Cursor.enter bytes (tag α) settings.integers
  (read : Reading α).result cursor

/-- Encodes under the standard settings; there must be a record. -/
def encodeGiven (record : Option α) : Except WireError Bytes :=
  match record with
  | none => .error .noInput
  | some record => encode .standard record

variable (α) in
/-- Decodes under the standard settings; there must be bytes. -/
def decodeGiven (bytes : Option Bytes) : Except WireError α :=
  match bytes with
  | none => .error .noInput
  | some bytes => decode α .standard bytes

end Record

/-- Credentials, each of which may be missing. -/
structure Login where
  username : Option String
  password : Option String
  deriving DecidableEq

/-- A status code, with a note for the reader if there is one. -/
structure Status where
  code : Int32
  message : Option String
  deriving DecidableEq

/-- A numbered piece of payload.  The size is what the sender states, not what was measured. -/
structure Packet where
  id : Int32
  payload : Option String
  size : Int32
  deriving DecidableEq

instance : Record Login where
  tag := "LoginRequest"
  fields := [⟨"username", .text⟩, ⟨"password", .text⟩]
  entries login := [("username", .text login.username), ("password", .text login.password)]
  write login := do
    Framing.text "username" login.username
    Framing.text "password" login.password
  read := do
    let username ← Reading.text "username"
    let password ← Reading.text "password"
    return ⟨username, password⟩

instance : Record Status where
  tag := "StatusUpdate"
  fields := [⟨"code", .integer⟩, ⟨"message", .text⟩]
  entries status := [("code", .integer status.code), ("message", .text status.message)]
  write status := do
    Framing.integer status.code
    Framing.text "message" status.message
  read := do
    let code ← Reading.integer "code"
    let message ← Reading.text "message"
    return ⟨code, message⟩

instance : Record Packet where
  tag := "DataPacket"
  fields := [⟨"id", .integer⟩, ⟨"payload", .text⟩, ⟨"size", .integer⟩]
  entries packet :=
    [("id", .integer packet.id), ("payload", .text packet.payload), ("size", .integer packet.size)]
  write packet := do
    Framing.integer packet.id
    Framing.text "payload" packet.payload
    Framing.integer packet.size
  read := do
    let id ← Reading.integer "id"
    let payload ← Reading.text "payload"
    let size ← Reading.integer "size"
    return ⟨id, payload, size⟩

end PipeCodec
