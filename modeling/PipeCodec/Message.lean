import PipeCodec.Record

/-!
# Messages

A message is one of the built-in records.  Decoding looks at the leading tag to find out which.
-/

set_option autoImplicit false

namespace PipeCodec

inductive Message where
  | login (record : Login)
  | status (record : Status)
  | packet (record : Packet)
  deriving DecidableEq

namespace Message

def tag : Message → String
  | login _ => Record.tag Login
  | status _ => Record.tag Status
  | packet _ => Record.tag Packet

/-- The values of the record inside, under their field names and in wire order. -/
def entries : Message → List (String × Value)
  | login record => Record.entries record
  | status record => Record.entries record
  | packet record => Record.entries record

def encode (settings : Settings) : Message → Except WireError Bytes
  | login record => Record.encode settings record
  | status record => Record.encode settings record
  | packet record => Record.encode settings record

def decode (settings : Settings) (bytes : Bytes) : Except WireError Message := do
  let tag ← leadingTag bytes
  if tag = Record.tag Login then login <$> Record.decode Login settings bytes
  else if tag = Record.tag Status then status <$> Record.decode Status settings bytes
  else if tag = Record.tag Packet then packet <$> Record.decode Packet settings bytes
  else .error (.unknownType tag)

/-- The same message with empty texts for missing ones. -/
def normalize : Message → Message
  | login ⟨username, password⟩ => login ⟨some (username.getD ""), some (password.getD "")⟩
  | status ⟨code, message⟩ => status ⟨code, some (message.getD "")⟩
  | packet ⟨id, payload, size⟩ => packet ⟨id, some (payload.getD ""), size⟩

/-- The message with its constructor, record type and labelled values. -/
def render : Message → String
  | login ⟨username, password⟩ =>
    applied "Login" (labelled (Record.tag Login)
      [("username", quoteOption username), ("password", quoteOption password)])
  | status ⟨code, message⟩ =>
    applied "Status" (labelled (Record.tag Status)
      [("code", Decimal.render code), ("message", quoteOption message)])
  | packet ⟨id, payload, size⟩ =>
    applied "Data" (labelled (Record.tag Packet)
      [("id", Decimal.render id), ("payload", quoteOption payload), ("size", Decimal.render size)])

end Message

end PipeCodec
