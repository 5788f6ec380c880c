import PipeCodec.Text.Utf8

/-!
# Spans

On the wire every span is closed by the delimiter, and there is no escape: a span cannot hold it.
Reading is forgiving at the end, where a non-empty run that no delimiter closes is a last span.
-/

set_option autoImplicit false

namespace PipeCodec.Wire

/-- The vertical bar. -/
def delimiter : UInt8 := 0x7C

/-- A span as it is written. -/
def closeSpan (span : Bytes) : Bytes :=
  span ++ [delimiter]

/-- The first span and the bytes after its delimiter; no span is left in the empty input. -/
def nextSpan? : Bytes → Option (Bytes × Bytes)
  | [] => none
  | byte :: rest =>
    some ((byte :: rest).takeWhile (· != delimiter),
      ((byte :: rest).dropWhile (· != delimiter)).drop 1)

/-- Taking a span leaves fewer bytes. -/
theorem nextSpan?_shorter {bytes span rest : Bytes} (found : nextSpan? bytes = some (span, rest)) :
    rest.length < bytes.length := by
  cases bytes with
  | nil => simp [nextSpan?] at found
  | cons byte more =>
    simp only [nextSpan?, Option.some.injEq, Prod.mk.injEq] at found
    have cut := congrArg List.length
      (List.takeWhile_append_dropWhile (p := (· != delimiter)) (l := byte :: more))
    rw [← found.2]
    simp only [List.length_append, List.length_drop, List.length_cons] at cut ⊢
    omega

/-- All spans in order. -/
def spans (bytes : Bytes) : List Bytes :=
  match _found : nextSpan? bytes with
  | none => []
  | some (span, rest) => span :: spans rest
termination_by bytes.length
decreasing_by exact nextSpan?_shorter _found

end PipeCodec.Wire
