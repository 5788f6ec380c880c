import PipeCodec.Proofs.Wire.Span

/-!
# Scanning span after span

A scan asks for one span after the other until there is none.  Every span uses up at least a byte,
so the scan comes to an end, with the spans of the bytes as its one outcome.  Scanning and closing
undo each other.  The spans that were scanned close to the bytes again, with a last delimiter where
it lacked, and no other row without the delimiter does so.  A row without the delimiter that is
closed and scanned is the row again, wherever it has empty spans.
-/

set_option autoImplicit false

namespace PipeCodec.Wire

/-- The spans that a number of steps yield, and the bytes behind them. -/
inductive Yields : Bytes → List Bytes → Bytes → Prop
  | nothing (bytes : Bytes) : Yields bytes [] bytes
  | span {bytes span rest left : Bytes} {row : List Bytes} :
    nextSpan? bytes = some (span, rest) → Yields rest row left → Yields bytes (span :: row) left

def ScansTo (bytes : Bytes) (row : List Bytes) : Prop :=
  ∃ left, Yields bytes row left ∧ nextSpan? left = none

theorem Yields.length_le {bytes left : Bytes} {row : List Bytes} (yielded : Yields bytes row left) :
    row.length + left.length ≤ bytes.length := by
  induction yielded with
  | nothing bytes => simp
  | span found _ ih =>
    have shorter := nextSpan?_shorter found
    rw [List.length_cons]
    omega

theorem Yields.spans_eq {bytes left : Bytes} {row : List Bytes} (yielded : Yields bytes row left) :
    spans bytes = row ++ spans left := by
  induction yielded with
  | nothing bytes => rfl
  | span found _ ih => rw [spans_of_some found, ih, List.cons_append]

theorem scansTo_spans (bytes : Bytes) : ScansTo bytes (spans bytes) := by
  fun_induction spans bytes with
  | case1 bytes used => exact ⟨bytes, .nothing bytes, used⟩
  | case2 bytes span rest found ih =>
    obtain ⟨left, yielded, used⟩ := ih
    exact ⟨left, .span found yielded, used⟩

/-- A scan has one outcome. -/
theorem scansTo_iff (bytes : Bytes) (row : List Bytes) : ScansTo bytes row ↔ row = spans bytes := by
  constructor
  · rintro ⟨left, yielded, used⟩
    rw [yielded.spans_eq, spans_of_none used, List.append_nil]
  · rintro rfl
    exact scansTo_spans bytes

/-- Of the rows without the delimiter only the spans close to the bytes. -/
theorem eq_spans_iff (bytes : Bytes) (row : List Bytes) :
    row = spans bytes ↔
      (∀ span ∈ row, delimiter ∉ span) ∧ row.flatMap closeSpan = closeLast bytes := by
  constructor
  · rintro rfl
    exact ⟨delimiter_notMem_spans bytes, flatMap_closeSpan_spans bytes⟩
  · rintro ⟨free, whole⟩
    -- Both rows are scanned from the same closed bytes.
    calc row
        = spans (row.flatMap closeSpan) := (spans_of_closed free).symm
      _ = spans ((spans bytes).flatMap closeSpan) := by rw [whole, flatMap_closeSpan_spans]
      _ = spans bytes := spans_of_closed (delimiter_notMem_spans bytes)

/-- A scan takes no more steps than there are bytes and has one outcome: the row without the
delimiter that closes to the bytes, once these end in a delimiter.  There is no other such row, and
every row without the delimiter is the outcome of scanning its closed spans. -/
theorem scanning_undoes_closing :
    (∀ bytes : Bytes,
      (∀ (row : List Bytes) (left : Bytes), Yields bytes row left →
        row.length + left.length ≤ bytes.length) ∧
      (∃ row, ScansTo bytes row) ∧
      ∀ row, ScansTo bytes row ↔
        (∀ span ∈ row, delimiter ∉ span) ∧
          row.flatMap (· ++ [delimiter]) =
            if bytes = [] ∨ bytes.getLast? = some delimiter then bytes
            else bytes ++ [delimiter]) ∧
    ∀ row : List Bytes, (∀ span ∈ row, delimiter ∉ span) →
      ∀ found, ScansTo (row.flatMap (· ++ [delimiter])) found ↔ found = row := by
  refine ⟨?_, ?_⟩
  · intro bytes
    refine ⟨fun row left yielded => yielded.length_le, ⟨spans bytes, scansTo_spans bytes⟩, ?_⟩
    intro row
    rw [scansTo_iff]
    exact eq_spans_iff bytes row
  · intro row free found
    have whole : spans (row.flatMap (· ++ [delimiter])) = row := spans_of_closed free
    rw [scansTo_iff, whole]

/-- Empty spans in front, in the middle and at the end are kept, and a tail counts as a span. -/
theorem empty_spans_and_a_tail_are_scanned :
    ScansTo (Utf8.encode "|A||x") [[], Utf8.encode "A", [], Utf8.encode "x"] ∧
      ScansTo (Utf8.encode "|A|||") [[], Utf8.encode "A", [], []] := by
  obtain ⟨scanned, back⟩ := scanning_undoes_closing
  refine ⟨?_, ?_⟩
  · apply ((scanned (Utf8.encode "|A||x")).2.2 _).mpr
    decide +kernel
  · exact (back [[], Utf8.encode "A", [], []] (by decide +kernel) _).mpr rfl

end PipeCodec.Wire
