import PipeCodec.Message

/-!
# Layouts

A layout names a message and lists its fields in wire order.  With a layout alone, and no record
type, bytes decode to a labelled message: the name with one value per field.  Encoding wants a
labelled message that fits the layout exactly in name, order, names and kinds of the fields.
-/

set_option autoImplicit false

namespace PipeCodec

structure Layout where
  name : String
  fields : List Field
  deriving DecidableEq

structure LabelledMessage where
  name : String
  values : List (String × Value)
  deriving DecidableEq

namespace LabelledMessage

/-- The value under a name; of several with one name, the first. -/
def get? (message : LabelledMessage) (field : String) : Option Value :=
  (message.values.find? (·.1 = field)).map (·.2)

def display (message : LabelledMessage) : String :=
  labelled message.name (message.values.map fun entry => (entry.1, entry.2.display))

/-- The same message with empty texts for missing ones. -/
def normalize (message : LabelledMessage) : LabelledMessage :=
  { message with values := message.values.map fun entry => (entry.1, entry.2.normalize) }

end LabelledMessage

namespace Layout

/-- Whether the layout is that of the record type. -/
def describes (layout : Layout) (α : Type) [Record α] : Bool :=
  layout.name = Record.tag α && layout.fields = Record.fields α

/-- The field at which the values first depart from the fields: the field that has no fitting value,
or else the name of the first surplus value. -/
def firstMismatch? : List Field → List (String × Value) → Option String
  | [], [] => none
  | [], (name, _) :: _ => some name
  | field :: _, [] => some field.name
  | field :: fields, (name, value) :: values =>
    if name = field.name ∧ value.kind = field.kind then firstMismatch? fields values
    else some field.name

def writeValues : List (String × Value) → Framing Unit
  | [] => return
  | (name, value) :: rest => do
    value.write name
    writeValues rest

def encode (layout : Layout) (settings : Settings) (message : LabelledMessage) :
    Except WireError Bytes :=
  if Wire.delimiter ∈ Utf8.encode message.name then .error (.delimiterInside "name")
  else if message.name ≠ layout.name then .error (.typeMismatch layout.name message.name)
  else
    match firstMismatch? layout.fields message.values with
    | some field => .error (.layoutMismatch field)
    | none => (writeValues message.values).finish (Frame.start message.name settings.capacity)

def readValues : List Field → Reading (List (String × Value))
  | [] => return []
  | field :: fields => do
    let value ← Value.read field
    let values ← readValues fields
    return (field.name, value) :: values

def decode (layout : Layout) (settings : Settings) (bytes : Bytes) :
    Except WireError LabelledMessage := do
  let cursor ← Cursor.enter bytes layout.name settings.integers
  let values ← (readValues layout.fields).result cursor
  return ⟨layout.name, values⟩

end Layout

/-- A message of the built-in kinds, seen as a labelled one. -/
def Message.toLabelled (message : Message) : LabelledMessage :=
  ⟨message.tag, message.entries⟩

end PipeCodec
