import PipeCodec.Wire.Error
import PipeCodec.Wire.Settings
import PipeCodec.Wire.Span

/-!
# Reading fields by position

A cursor stands before the spans that are still to be read.  Each read takes one span, whether or
not its contents are accepted, so an error never shifts the fields after it.  Where no span is
left a text is missing and an integer is zero.
-/

set_option autoImplicit false

namespace PipeCodec

structure Cursor where
  rest : Bytes
  integers : IntegerRule

/-- A read that may fail; the cursor has moved in either case. -/
abbrev Reading := ExceptT WireError (StateM Cursor)

namespace Cursor

/-- Checks the leading tag, byte for byte, and stands before the first field. -/
def enter (bytes : Bytes) (tag : String) (integers : IntegerRule) : Except WireError Cursor :=
  match Wire.nextSpan? bytes with
  | none => .error .noInput
  | some (found, rest) =>
    if found = Utf8.encode tag then .ok ⟨rest, integers⟩
    else .error (.typeMismatch tag (Utf8.lossy found))

/-- The next span, if one is left, and the cursor after it. -/
def advance (cursor : Cursor) : Option Bytes × Cursor :=
  match Wire.nextSpan? cursor.rest with
  | none => (none, cursor)
  | some (span, rest) => (some span, { cursor with rest })

end Cursor

/-- The text that a span holds for a field. -/
def textOfSpan (field : String) : Option Bytes → Except WireError (Option String)
  | none => .ok none
  | some span =>
    match Utf8.decode? span with
    | some text => .ok (some text)
    | none => .error (.malformedText field)

/-- The integer that a span holds for a field. -/
def integerOfSpan (integers : IntegerRule) (field : String) : Option Bytes → Except WireError Int32
  | none => .ok 0
  | some span =>
    match integers with
    | .lenient => .ok (Decimal.readLenient span)
    | .exact =>
      match Decimal.readExact? span with
      | some value => .ok value
      | none => .error (.malformedInteger field (Utf8.lossy span))

namespace Reading

def text (field : String) : Reading (Option String) :=
  fun cursor =>
    let (span, next) := cursor.advance
    (textOfSpan field span, next)

def integer (field : String) : Reading Int32 :=
  fun cursor =>
    let (span, next) := cursor.advance
    (integerOfSpan cursor.integers field span, next)

/-- The result of a read that nothing follows. -/
def result {α : Type} (reading : Reading α) (cursor : Cursor) : Except WireError α :=
  (reading.run.run cursor).1

end Reading

/-- The text of the leading tag, before it is known which message it names. -/
def leadingTag (bytes : Bytes) : Except WireError String :=
  match Wire.nextSpan? bytes with
  | none => .error .noInput
  | some (tag, _) =>
    match Utf8.decode? tag with
    | some text => .ok text
    | none => .error (.unknownType (Utf8.lossy tag))

end PipeCodec
