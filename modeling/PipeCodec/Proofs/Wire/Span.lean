import Mathlib.Data.List.TakeWhile
import PipeCodec.Proofs.Text.Segment
import PipeCodec.Proofs.Text.Utf8
import PipeCodec.Wire.Span

/-!
# Spans of a wire

A span without the delimiter is found again after it was closed, whatever stands behind it.  So a
row of such spans, each of them closed, is scanned into exactly that row.  Conversely any bytes are
scanned into spans without the delimiter, and closing these gives the bytes back, up to a delimiter
that the last span lacked.  The spans are the pieces between the delimiters, less an empty last one.
-/

set_option autoImplicit false

namespace PipeCodec.Wire

theorem delimiter_mem_encode_iff (text : String) :
    delimiter ∈ Utf8.encode text ↔ '|' ∈ text.toList := by
  have low : '|'.toNat < 0x80 := by decide
  exact Utf8.mem_encode_iff low text

theorem nextSpan?_closeSpan (span rest : Bytes) (free : delimiter ∉ span) :
    nextSpan? (closeSpan span ++ rest) = some (span, rest) := by
  have split : closeSpan span ++ rest = span ++ delimiter :: rest := by
    rw [closeSpan, List.append_assoc, List.singleton_append]
  have ordinary := Segment.bne_of_notMem free
  have found : nextSpan? (span ++ delimiter :: rest) =
      some ((span ++ delimiter :: rest).takeWhile (· != delimiter),
        ((span ++ delimiter :: rest).dropWhile (· != delimiter)).drop 1) := by
    cases span with
    | nil => rfl
    | cons byte more => rfl
  rw [split, found, List.takeWhile_append_of_pos ordinary, List.dropWhile_append_of_pos ordinary,
    List.takeWhile_cons_of_neg (by simp), List.dropWhile_cons_of_neg (by simp), List.append_nil]
  rfl

@[simp]
theorem spans_nil : spans [] = [] := by
  rw [spans]
  rfl

theorem spans_of_none {bytes : Bytes} (used : nextSpan? bytes = none) : spans bytes = [] := by
  cases bytes with
  | nil => exact spans_nil
  | cons byte rest => simp [nextSpan?] at used

theorem spans_of_some {bytes span rest : Bytes} (found : nextSpan? bytes = some (span, rest)) :
    spans bytes = span :: spans rest := by
  rw [spans]
  split
  · next none => simp [none] at found
  · next other after some =>
    rw [some, Option.some.injEq, Prod.mk.injEq] at found
    rw [found.1, found.2]

theorem exists_spans_eq_cons {bytes : Bytes} (someByte : bytes ≠ []) :
    ∃ tag rest, spans bytes = tag :: rest := by
  cases bytes with
  | nil => exact absurd rfl someByte
  | cons byte more => exact ⟨_, _, spans_of_some rfl⟩

theorem ne_nil_of_spans {bytes tag : Bytes} {rest : List Bytes}
    (row : spans bytes = tag :: rest) : bytes ≠ [] := by
  intro empty
  rw [empty, spans_nil] at row
  cases row

theorem spans_closeSpan (span rest : Bytes) (free : delimiter ∉ span) :
    spans (closeSpan span ++ rest) = span :: spans rest :=
  spans_of_some (nextSpan?_closeSpan span rest free)

/-- Scanning gives back every row of closed spans, empty ones included, and goes on behind it. -/
theorem spans_flatMap_closeSpan (row : List Bytes) (rest : Bytes)
    (free : ∀ span ∈ row, delimiter ∉ span) :
    spans (row.flatMap closeSpan ++ rest) = row ++ spans rest := by
  induction row with
  | nil => rfl
  | cons span others ih =>
    have behind := ih fun other member => free other (List.mem_cons_of_mem span member)
    rw [List.flatMap_cons, List.append_assoc,
      spans_closeSpan span _ (free span List.mem_cons_self), behind, List.cons_append]

theorem spans_of_closed {row : List Bytes} (free : ∀ span ∈ row, delimiter ∉ span) :
    spans (row.flatMap closeSpan) = row := by
  have whole := spans_flatMap_closeSpan row [] free
  rwa [List.append_nil, spans_nil, List.append_nil] at whole

/-! ## Scanning arbitrary bytes -/

theorem nextSpan?_eq_some {bytes span rest : Bytes} (found : nextSpan? bytes = some (span, rest)) :
    delimiter ∉ span ∧ (bytes = closeSpan span ++ rest ∨ bytes = span ∧ rest = []) := by
  cases bytes with
  | nil => cases found
  | cons byte more =>
    by_cases closed : delimiter ∈ byte :: more
    · obtain ⟨before, after, split, free⟩ := List.eq_append_cons_of_mem closed
      have whole : byte :: more = closeSpan before ++ after := by
        rw [split, closeSpan, List.append_assoc, List.singleton_append]
      rw [whole, nextSpan?_closeSpan before after free] at found
      cases found
      exact ⟨free, Or.inl whole⟩
    · have ordinary := Segment.bne_of_notMem closed
      simp only [nextSpan?, List.takeWhile_eq_self_iff.mpr ordinary,
        List.dropWhile_eq_nil_iff.mpr ordinary, List.drop_nil] at found
      cases found
      exact ⟨closed, Or.inr ⟨rfl, rfl⟩⟩

theorem ne_nil_of_nextSpan? {bytes : Bytes} {next : Bytes × Bytes}
    (found : nextSpan? bytes = some next) : bytes ≠ [] := by
  rintro rfl
  cases found

/-- Bytes without the delimiter are one span, which nothing closes. -/
theorem spans_of_notMem {bytes : Bytes} (free : delimiter ∉ bytes) (someByte : bytes ≠ []) :
    spans bytes = [bytes] := by
  have ordinary := Segment.bne_of_notMem free
  obtain ⟨byte, rest, rfl⟩ := List.exists_cons_of_ne_nil someByte
  have found : nextSpan? (byte :: rest) = some (byte :: rest, []) := by
    simp only [nextSpan?, List.takeWhile_eq_self_iff.mpr ordinary,
      List.dropWhile_eq_nil_iff.mpr ordinary, List.drop_nil]
  rw [spans_of_some found, spans_nil]

theorem delimiter_notMem_spans (bytes : Bytes) : ∀ span ∈ spans bytes, delimiter ∉ span := by
  fun_induction spans bytes with
  | case1 bytes used => simp
  | case2 bytes span rest found ih =>
    exact List.forall_mem_cons.mpr ⟨(nextSpan?_eq_some found).1, ih⟩

theorem mem_of_mem_spans {bytes span : Bytes} {byte : UInt8} (among : span ∈ spans bytes)
    (member : byte ∈ span) : byte ∈ bytes := by
  fun_induction spans bytes with
  | case1 bytes used => cases among
  | case2 bytes first rest found ih =>
    rcases nextSpan?_eq_some found with ⟨-, rfl | ⟨rfl, rfl⟩⟩
    · rcases List.mem_cons.mp among with rfl | later
      · exact List.mem_append_left rest (List.mem_append_left [delimiter] member)
      · exact List.mem_append_right (closeSpan first) (ih later)
    · rcases List.mem_cons.mp among with rfl | later
      · exact member
      · cases ih later

def closeLast (bytes : Bytes) : Bytes :=
  if bytes = [] ∨ bytes.getLast? = some delimiter then bytes else closeSpan bytes

theorem closeLast_closeSpan_append (span rest : Bytes) :
    closeLast (closeSpan span ++ rest) = closeSpan span ++ closeLast rest := by
  have last : (closeSpan span).getLast? = some delimiter := List.getLast?_concat
  have someByte : closeSpan span ++ rest ≠ [] := by simp [closeSpan]
  by_cases nothing : rest = []
  · rw [nothing, List.append_nil, closeLast, if_pos (Or.inr last), closeLast,
      if_pos (Or.inl rfl), List.append_nil]
  · have sameLast : (closeSpan span ++ rest).getLast? = rest.getLast? := by
      rw [List.getLast?_append, List.getLast?_eq_some_getLast nothing, Option.some_or]
    simp only [closeLast, sameLast, someByte, nothing, false_or]
    split
    · rfl
    · simp only [closeSpan, List.append_assoc]

theorem closeLast_of_notMem {bytes : Bytes} (free : delimiter ∉ bytes) (someByte : bytes ≠ []) :
    closeLast bytes = closeSpan bytes := by
  apply if_neg
  rintro (nothing | last)
  · exact someByte nothing
  · exact free (List.mem_of_getLast? last)

/-- Nothing is lost: the spans, closed, are the bytes with their last span closed. -/
theorem flatMap_closeSpan_spans (bytes : Bytes) :
    (spans bytes).flatMap closeSpan = closeLast bytes := by
  fun_induction spans bytes with
  | case1 bytes used =>
    cases bytes with
    | nil => rfl
    | cons byte rest => cases used
  | case2 bytes span rest found ih =>
    rw [List.flatMap_cons, ih]
    obtain ⟨free, closed | ⟨unclosed, nothing⟩⟩ := nextSpan?_eq_some found
    · rw [closed, closeLast_closeSpan_append]
    · have someByte : span ≠ [] := ne_nil_of_nextSpan? (unclosed ▸ found)
      rw [unclosed, nothing, closeLast_of_notMem free someByte]
      exact List.append_nil _

theorem length_flatMap_spans (bytes : Bytes) :
    ((spans bytes).flatMap closeSpan).length ≤ bytes.length + 1 := by
  rw [flatMap_closeSpan_spans, closeLast]
  split
  · omega
  · simp [closeSpan]

theorem getLast?_flatMap_closeSpan {row : List Bytes} (someSpan : row ≠ []) :
    (row.flatMap closeSpan).getLast? = some delimiter := by
  have last := (List.dropLast_concat_getLast someSpan).symm
  rw [last, List.flatMap_append, List.flatMap_singleton, closeSpan, ← List.append_assoc,
    List.getLast?_concat]

/-! ## Spans as pieces -/

/-- What stands between the delimiters, without an empty piece behind the last of them. -/
def pieces (bytes : Bytes) : List Bytes :=
  Segment.dropFinal [] (bytes.splitOn delimiter)

theorem spans_eq_pieces (bytes : Bytes) : spans bytes = pieces bytes := by
  fun_induction spans bytes with
  | case1 bytes used =>
    cases bytes with
    | nil => rfl
    | cons byte rest => cases used
  | case2 bytes span rest found ih =>
    obtain ⟨free, closed | ⟨unclosed, nothing⟩⟩ := nextSpan?_eq_some found
    · rw [ih, closed, closeSpan, List.append_assoc, List.singleton_append, pieces, pieces,
        List.splitOn_append_cons_self_of_not_mem free,
        Segment.dropFinal_cons [] span (List.splitOn_ne_nil delimiter rest)]
    · have someByte : span ≠ [] := ne_nil_of_nextSpan? (unclosed ▸ found)
      rw [nothing, spans_nil, unclosed, pieces, List.splitOn_eq_singleton free,
        Segment.dropFinal_of_getLast? (by simpa using someByte)]

end PipeCodec.Wire
