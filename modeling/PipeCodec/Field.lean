import PipeCodec.Wire.Cursor
import PipeCodec.Wire.Frame

/-!
# Fields and their values

A field has a name and a kind; a value is a text that may be missing or a 32-bit integer.  This is
the vocabulary that records and layouts share.
-/

set_option autoImplicit false

namespace PipeCodec

inductive FieldKind where
  | text
  | integer
  deriving DecidableEq

/-- The word for a kind in layout descriptions. -/
def FieldKind.keyword : FieldKind → String
  | .text => "string"
  | .integer => "int"

structure Field where
  name : String
  kind : FieldKind
  deriving DecidableEq

inductive Value where
  | text (value : Option String)
  | integer (value : Int32)
  deriving DecidableEq

namespace Value

def kind : Value → FieldKind
  | text _ => .text
  | integer _ => .integer

/-- Texts are quoted, and a missing text has a form that no quoted text has. -/
def display : Value → String
  | text (some value) => quote value
  | text none => "<absent>"
  | integer value => Decimal.render value

/-- A missing text becomes an empty one; this is what the wire cannot tell apart. -/
def normalize : Value → Value
  | text value => text (some (value.getD ""))
  | integer value => integer value

def write (field : String) : Value → Framing Unit
  | text value => Framing.text field value
  | integer value => Framing.integer value

/-- Reads the value of a field by its kind. -/
def read (field : Field) : Reading Value :=
  match field.kind with
  | .text => text <$> Reading.text field.name
  | .integer => integer <$> Reading.integer field.name

end Value

end PipeCodec
