import PipeCodec.Layout
import PipeCodec.Failure
import PipeCodec.Text.Blank

/-!
# Declarations

A description of layouts is read line by line.  A line opens a message, adds a field to the message
opened last, or says nothing because it is blank or a comment.
-/

set_option autoImplicit false

namespace PipeCodec

inductive SchemaError where
  /-- A field came before any message. -/
  | orphanField (line : Nat)
  | unknownKind (line : Nat) (kind : String)
  /-- The name holds the delimiter. -/
  | invalidName (line : Nat) (name : String)
  | malformed (line : Nat) (content : String)
  | duplicateMessage (name : String)
  | unreadable (failure : Failure)
  deriving DecidableEq

namespace SchemaError

def message : SchemaError → String
  | orphanField line => "line " ++ Decimal.digits line ++ ": FIELD declared outside of a MESSAGE"
  | unknownKind line kind =>
    "line " ++ Decimal.digits line ++ ": unknown field type '" ++ kind ++ "'"
  | invalidName line name => "line " ++ Decimal.digits line ++ ": invalid name '" ++ name ++ "'"
  | malformed line content =>
    "line " ++ Decimal.digits line ++ ": malformed declaration '" ++ content ++ "'"
  | duplicateMessage name => "message '" ++ name ++ "' declared more than once"
  | unreadable failure => "failed to read schema: " ++ failure.message

def render : SchemaError → String
  | orphanField line => labelled "OrphanField" [("line", Decimal.digits line)]
  | unknownKind line kind =>
    labelled "UnknownFieldType" [("line", Decimal.digits line), ("kind", quote kind)]
  | invalidName line name =>
    labelled "InvalidName" [("line", Decimal.digits line), ("name", quote name)]
  | malformed line content =>
    labelled "Malformed" [("line", Decimal.digits line), ("content", quote content)]
  | duplicateMessage name => applied "DuplicateMessage" (quote name)
  | unreadable failure => applied "Io" failure.render

end SchemaError

def FieldKind.ofKeyword? (word : String) : Option FieldKind :=
  if word = "string" then some .text
  else if word = "int" then some .integer
  else none

/-- What one line says. -/
inductive Declaration where
  | nothing
  | message (name : String)
  | field (name kind : String)
  /-- The line, without the blanks around it, is none of these. -/
  | other (content : String)
  deriving DecidableEq

namespace Declaration

def ofWords (content : List Char) : List String → Declaration
  | ["MESSAGE", name] => .message name
  | ["FIELD", name, kind] => .field name kind
  | _ => .other (String.ofList content)

def ofLine (line : List Char) : Declaration :=
  match Text.trim line with
  | [] => .nothing
  | c :: rest =>
    if c = '#' then .nothing
    else ofWords (c :: rest) ((Text.words (c :: rest)).map String.ofList)

/-- Adds what a line declares to the layouts known so far, of which the latest stands first. -/
def declare (line : Nat) (known : List Layout) : Declaration → Except SchemaError (List Layout)
  | .nothing => .ok known
  | .message name =>
    if Wire.delimiter ∈ Utf8.encode name then .error (.invalidName line name)
    else if known.any (·.name = name) then .error (.duplicateMessage name)
    else .ok (⟨name, []⟩ :: known)
  | .field name kind =>
    match known with
    | [] => .error (.orphanField line)
    | latest :: earlier =>
      match FieldKind.ofKeyword? kind with
      | none => .error (.unknownKind line kind)
      | some kind =>
        if Wire.delimiter ∈ Utf8.encode name then .error (.invalidName line name)
        else .ok ({ latest with fields := latest.fields ++ [⟨name, kind⟩] } :: earlier)
  | .other content => .error (.malformed line content)

/-- Declares line after line; `line` is the number of the first. -/
def declareAll (line : Nat) (known : List Layout) :
    List (List Char) → Except SchemaError (List Layout)
  | [] => .ok known
  | first :: rest => do
    let known ← declare line known (ofLine first)
    declareAll (line + 1) known rest

end Declaration

end PipeCodec
