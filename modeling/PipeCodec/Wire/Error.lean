import PipeCodec.Decimal
import PipeCodec.Text.Parts

/-!
# What can go wrong with a message on the wire

Each constructor is a cause.  `message` words it for a reader, with texts as they are; `render`
shows the cause and its parts, with texts quoted.
-/

set_option autoImplicit false

namespace PipeCodec

inductive WireError where
  /-- There is nothing to encode or to decode. -/
  | noInput
  | typeMismatch (expected found : String)
  /-- The whole record has this length, and that is over the capacity. -/
  | overCapacity (length capacity : Nat)
  /-- The value of the field holds the delimiter. -/
  | delimiterInside (field : String)
  | malformedText (field : String)
  | malformedInteger (field value : String)
  /-- The field is the first at which a message departs from its layout. -/
  | layoutMismatch (field : String)
  /-- No known message has this tag. -/
  | unknownType (tag : String)
  deriving DecidableEq

namespace WireError

def message : WireError → String
  | noInput => "no input provided"
  | typeMismatch expected found =>
    "type mismatch: expected '" ++ expected ++ "', found '" ++ found ++ "'"
  | overCapacity length capacity =>
    "encoded record is " ++ Decimal.digits length ++ " bytes, capacity is " ++
      Decimal.digits capacity
  | delimiterInside field => "field '" ++ field ++ "' contains the '|' delimiter"
  | malformedText field => "field '" ++ field ++ "' is not valid UTF-8"
  | malformedInteger field value =>
    "field '" ++ field ++ "' is not a valid integer: '" ++ value ++ "'"
  | layoutMismatch field => "field '" ++ field ++ "' does not match the message layout"
  | unknownType tag => "unknown message type '" ++ tag ++ "'"

def render : WireError → String
  | noInput => "InvalidInput"
  | typeMismatch expected found =>
    labelled "TypeMismatch" [("expected", quote expected), ("found", quote found)]
  | overCapacity length capacity =>
    labelled "CapacityExceeded"
      [("len", Decimal.digits length), ("capacity", Decimal.digits capacity)]
  | delimiterInside field => labelled "DelimiterInField" [("field", quote field)]
  | malformedText field => labelled "InvalidText" [("field", quote field)]
  | malformedInteger field value =>
    labelled "InvalidInteger" [("field", quote field), ("value", quote value)]
  | layoutMismatch field => labelled "LayoutMismatch" [("field", quote field)]
  | unknownType tag => applied "UnknownType" (quote tag)

end WireError

end PipeCodec
