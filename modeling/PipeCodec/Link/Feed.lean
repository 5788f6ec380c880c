import PipeCodec.Failure
import PipeCodec.Text.Segment

/-!
# Feeds

A feed delivers bytes in pieces of any size.  It holds at most one fetched block, and fetches the
next only when that is used up, so lines come out the same however the bytes were cut.  An
interruption is passed over.  A delivery without bytes is an end of the stream, once: what follows
it can still be read.
-/

set_option autoImplicit false

namespace PipeCodec

/-- What one attempt to fetch bytes meets. -/
inductive Delivery where
  | data (bytes : Bytes)
  | failed (cause : Failure)
  | interrupted
  deriving DecidableEq

/-- A number that fetching makes smaller. -/
def Delivery.weight : Delivery → Nat
  | data bytes => bytes.length + 1
  | failed _ => 1
  | interrupted => 1

structure Feed where
  /-- Fetched and not yet used. -/
  held : Bytes
  /-- Still to come; after the last of them the stream is at its end. -/
  deliveries : List Delivery
  deriving DecidableEq

namespace Feed

def lineFeed : UInt8 := 0x0A

def carriageReturn : UInt8 := 0x0D

/-- How many bytes are fetched at once. -/
def blockSize : Nat := 8192

def weight : List Delivery → Nat
  | [] => 0
  | delivery :: later => delivery.weight + weight later

/-- What is left of a delivery after a block of it was fetched. -/
def afterBlock (bytes : Bytes) (later : List Delivery) : List Delivery :=
  match bytes.drop blockSize with
  | [] => later
  | byte :: rest => .data (byte :: rest) :: later

theorem weight_afterBlock (bytes : Bytes) (later : List Delivery) (some_byte : bytes ≠ []) :
    weight (afterBlock bytes later) < weight (.data bytes :: later) := by
  have positive := List.length_pos_iff.mpr some_byte
  unfold afterBlock
  split
  · simp [weight, Delivery.weight]
  · next left =>
    have shorter := congrArg List.length left
    simp only [List.length_drop, List.length_cons, blockSize] at shorter
    simp [weight, Delivery.weight]
    omega

/-- Extends what was taken so far through the next line feed, or up to the end of the stream.  A
failure leaves the feed behind what was taken. -/
def takeLine (taken : Bytes) (feed : Feed) : Except Failure Bytes × Feed :=
  match feed with
  | ⟨byte :: held, deliveries⟩ =>
    let cut := Segment.cutAfter lineFeed (byte :: held)
    if lineFeed ∈ cut.1 then (.ok (taken ++ cut.1), ⟨cut.2, deliveries⟩)
    else takeLine (taken ++ cut.1) ⟨cut.2, deliveries⟩
  | ⟨[], []⟩ => (.ok taken, ⟨[], []⟩)
  | ⟨[], .interrupted :: later⟩ => takeLine taken ⟨[], later⟩
  | ⟨[], .failed cause :: later⟩ => (.error cause, ⟨[], later⟩)
  | ⟨[], .data [] :: later⟩ => (.ok taken, ⟨[], later⟩)
  | ⟨[], .data (byte :: bytes) :: later⟩ =>
    takeLine taken ⟨(byte :: bytes).take blockSize, afterBlock (byte :: bytes) later⟩
termination_by (weight feed.deliveries, feed.held.length)
decreasing_by
  · exact Prod.Lex.right _ (Segment.cutAfter_shorter lineFeed (byte :: held) (by simp))
  · exact Prod.Lex.left _ _ (by simp [weight, Delivery.weight])
  · exact Prod.Lex.left _ _ (weight_afterBlock (byte :: bytes) later (by simp))

/-- The next line with its end; no bytes at all at the end of the stream. -/
def nextLine (feed : Feed) : Except Failure Bytes × Feed :=
  feed.takeLine []

end Feed

end PipeCodec
