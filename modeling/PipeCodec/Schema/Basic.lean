import PipeCodec.Schema.Declaration

/-!
# Schemas

A schema is an ordered list of layouts.  One read from a description has no two layouts of one
name, so the leading tag of a message finds its layout.
-/

set_option autoImplicit false

namespace PipeCodec

structure Schema where
  layouts : List Layout
  deriving DecidableEq

namespace Schema

/-- Reads a description; lines are numbered from one, and the first line at fault is reported. -/
def parse (source : String) : Except SchemaError Schema := do
  let known ← Declaration.declareAll 1 [] (Text.lines source.toList)
  return ⟨known.reverse⟩

/-- Reads a description from the contents of a file. -/
def ofFile (contents : Except Failure Bytes) : Except SchemaError Schema :=
  match contents with
  | .error failure => .error (.unreadable failure)
  | .ok bytes =>
    match Utf8.decode? bytes with
    | none => .error (.unreadable .notText)
    | some source => parse source

def get? (schema : Schema) (name : String) : Option Layout :=
  schema.layouts.find? (·.name = name)

/-- Decodes against the layout that the leading tag names. -/
def decode (schema : Schema) (settings : Settings) (bytes : Bytes) :
    Except WireError LabelledMessage := do
  let tag ← leadingTag bytes
  match schema.get? tag with
  | none => .error (.unknownType tag)
  | some layout => layout.decode settings bytes

/-- The description of the built-in records, line by line. -/
def builtinLines : List String :=
  [ "# Message layouts for the pipe-delimited wire format.",
    "#",
    "# MESSAGE <Name>            opens a message",
    "# FIELD <name> <string|int> appends a field, in wire order",
    "",
    "MESSAGE LoginRequest",
    "FIELD username string",
    "FIELD password string",
    "",
    "MESSAGE StatusUpdate",
    "FIELD code int",
    "FIELD message string",
    "",
    "MESSAGE DataPacket",
    "FIELD id int",
    "FIELD payload string",
    "FIELD size int" ]

def builtinSource : String :=
  String.join (builtinLines.map (· ++ "\n"))

def builtin : Except SchemaError Schema :=
  parse builtinSource

/-- A layout as it is listed: its name, then each field on a line of its own, set in by two
blanks. -/
def listLayout (layout : Layout) : String :=
  layout.name ++ "\n" ++
    String.join (layout.fields.map fun field =>
      "  " ++ field.name ++ " " ++ field.kind.keyword ++ "\n")

def listing (schema : Schema) : String :=
  String.join (schema.layouts.map listLayout)

end Schema

end PipeCodec
