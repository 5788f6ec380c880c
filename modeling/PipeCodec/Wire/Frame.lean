import PipeCodec.Wire.Error
import PipeCodec.Wire.Span

/-!
# Frames under construction

A frame is the wire form of one record while it is being written: the closed spans so far and the
capacity.  A write that fails has its frame all the same, and the next write goes on with it.  The
capacity is compared once, with the whole length, when the frame is finished, so nothing is ever
cut short.
-/

set_option autoImplicit false

namespace PipeCodec

structure Frame where
  bytes : Bytes
  capacity : Nat

namespace Frame

def push (frame : Frame) (span : Bytes) : Frame :=
  { frame with bytes := frame.bytes ++ Wire.closeSpan span }

/-- A frame that holds the tag and nothing else. -/
def start (tag : String) (capacity : Nat) : Frame :=
  push ⟨[], capacity⟩ (Utf8.encode tag)

/-- The bytes of a text field; a missing text is written like an empty one. -/
def textSpan (value : Option String) : Bytes :=
  Utf8.encode (value.getD "")

def integerSpan (value : Int32) : Bytes :=
  Utf8.encode (Decimal.render value)

def finish (frame : Frame) : Except WireError Bytes :=
  if frame.capacity < frame.bytes.length then
    .error (.overCapacity frame.bytes.length frame.capacity)
  else .ok frame.bytes

end Frame

/-- A write that may fail; there is a frame after it in either case. -/
abbrev Framing := ExceptT WireError (StateM Frame)

namespace Framing

def push (span : Bytes) : Framing Unit :=
  modify (·.push span)

/-- A text that holds the delimiter is refused. -/
def text (field : String) (value : Option String) : Framing Unit := do
  if Wire.delimiter ∈ Frame.textSpan value then
    throw (.delimiterInside field)
  push (Frame.textSpan value)

def integer (value : Int32) : Framing Unit :=
  push (Frame.integerSpan value)

/-- Finishes the frame that a write leaves, unless the write failed. -/
def finish (framing : Framing Unit) (frame : Frame) : Except WireError Bytes := do
  let (outcome, written) := framing.run.run frame
  outcome
  written.finish

end Framing

end PipeCodec
