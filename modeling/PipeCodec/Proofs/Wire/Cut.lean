import PipeCodec.Proofs.Wire.Span

/-!
# A row of closed spans, cut short

In a row of closed spans each span has a place of its own, with its delimiter right behind it.  If
the bytes end early, the spans whose delimiter is still there are found as they were, the span that
the end falls into is found as far as it goes, and the others are not found.  A span of which
nothing is left is not found either, even if the delimiter before it is: that is how an empty span
differs from none.
-/

set_option autoImplicit false

namespace PipeCodec.Wire

def offset (row : List Bytes) (index : Nat) : Nat :=
  ((row.take index).flatMap closeSpan).length

@[simp]
theorem offset_zero (row : List Bytes) : offset row 0 = 0 := by
  simp [offset]

theorem length_closeSpan (span : Bytes) : (closeSpan span).length = span.length + 1 := by
  rw [closeSpan, List.length_append, List.length_singleton]

theorem offset_cons_succ (span : Bytes) (row : List Bytes) (index : Nat) :
    offset (span :: row) (index + 1) = span.length + 1 + offset row index := by
  rw [offset, List.take_succ_cons, List.flatMap_cons, List.length_append, length_closeSpan, offset]

theorem offset_succ {row : List Bytes} {index : Nat} {span : Bytes}
    (found : row[index]? = some span) :
    offset row (index + 1) = offset row index + span.length + 1 := by
  unfold offset
  rw [List.take_add_one, found, List.flatMap_append, List.length_append, Option.toList_some,
    List.flatMap_singleton, length_closeSpan, Nat.add_assoc]

theorem offset_mono (row : List Bytes) {index later : Nat} (before : index ≤ later) :
    offset row index ≤ offset row later := by
  induction later, before using Nat.le_induction with
  | base => exact Nat.le_refl _
  | succ later _ ih =>
    cases found : row[later]? with
    | none =>
      have ended := List.getElem?_eq_none_iff.mp found
      have same : offset row (later + 1) = offset row later := by
        rw [offset, offset, List.take_of_length_le ended,
          List.take_of_length_le (Nat.le_succ_of_le ended)]
      rw [same]
      exact ih
    | some span =>
      rw [offset_succ found]
      omega

/-- At most one span has the end of the bytes inside it. -/
theorem index_unique (row : List Bytes) {index other length : Nat} {span otherSpan : Bytes}
    (found : row[index]? = some span) (otherFound : row[other]? = some otherSpan)
    (begins : offset row index < length) (ends : length ≤ offset row index + span.length)
    (otherBegins : offset row other < length)
    (otherEnds : length ≤ offset row other + otherSpan.length) : index = other := by
  have next := offset_succ found
  have otherNext := offset_succ otherFound
  rcases Nat.lt_trichotomy index other with before | same | behind
  · have order : offset row (index + 1) ≤ offset row other := offset_mono row before
    omega
  · exact same
  · have order : offset row (other + 1) ≤ offset row index := offset_mono row behind
    omega

/-- The bytes at the place of a span are the span, and the delimiter stands behind them. -/
theorem slice_closed (row : List Bytes) : ∀ {index : Nat} {span : Bytes},
    row[index]? = some span →
      ((row.flatMap closeSpan).take (offset row index + span.length)).drop (offset row index) =
        span ∧
      (row.flatMap closeSpan)[offset row index + span.length]? = some delimiter := by
  induction row with
  | nil =>
    intro index span found
    cases found
  | cons first row ih =>
    intro index span found
    rw [List.flatMap_cons]
    cases index with
    | zero =>
      cases found
      rw [offset_zero, Nat.zero_add, List.drop_zero, closeSpan, List.append_assoc]
      exact ⟨List.take_left, by simp⟩
    | succ index =>
      obtain ⟨slice, closed⟩ := ih found
      have behind : first.length + 1 + offset row index + span.length =
          (closeSpan first).length + (offset row index + span.length) := by
        rw [length_closeSpan]
        omega
      rw [offset_cons_succ, behind, ← length_closeSpan]
      refine ⟨?_, ?_⟩
      · rw [List.take_length_add_append, List.drop_length_add_append]
        exact slice
      · rw [List.getElem?_append_right (Nat.le_add_right _ _), Nat.add_sub_cancel_left]
        exact closed

/-- What is found of a span when the bytes are cut to a length. -/
theorem getElem?_spans_take (row : List Bytes) (free : ∀ span ∈ row, delimiter ∉ span) :
    ∀ (length : Nat) {index : Nat} {span : Bytes}, row[index]? = some span →
      (spans ((row.flatMap closeSpan).take length))[index]? =
        if offset row index + span.length < length then some span
        else if offset row index < length then
          some (((row.flatMap closeSpan).take length).drop (offset row index))
        else none := by
  induction row with
  | nil =>
    intro length index span found
    cases found
  | cons first row ih =>
    intro length index span found
    obtain ⟨firstFree, others⟩ := List.forall_mem_cons.mp free
    rw [List.flatMap_cons]
    -- The cut lies behind the delimiter of the first span, or it leaves no delimiter at all.
    by_cases whole : first.length < length
    · obtain ⟨rest, rfl⟩ := Nat.exists_eq_add_of_le (Nat.succ_le_of_lt whole)
      rw [Nat.succ_eq_add_one, ← length_closeSpan, List.take_length_add_append,
        spans_closeSpan first _ firstFree]
      cases index with
      | zero =>
        cases found
        rw [offset_zero, if_pos (by rw [length_closeSpan]; omega)]
        rfl
      | succ index =>
        rw [List.getElem?_cons_succ, ih others rest found, offset_cons_succ, ← length_closeSpan,
          List.drop_length_add_append, Nat.add_assoc]
        simp only [Nat.add_lt_add_iff_left]
    · have short : length ≤ first.length := Nat.le_of_not_lt whole
      have cut : (closeSpan first ++ row.flatMap closeSpan).take length = first.take length := by
        rw [closeSpan, List.append_assoc, List.take_append_of_le_length short]
      have cutFree : delimiter ∉ first.take length := fun member =>
        firstFree (List.mem_of_mem_take member)
      rw [cut]
      by_cases nothing : length = 0
      · rw [nothing, List.take_zero, spans_nil, if_neg (Nat.not_lt_zero _),
          if_neg (Nat.not_lt_zero _)]
        rfl
      · have someByte : first.take length ≠ [] := by
          intro empty
          have lengths := congrArg List.length empty
          rw [List.length_take, List.length_nil] at lengths
          omega
        rw [spans_of_notMem cutFree someByte]
        cases index with
        | zero =>
          cases found
          rw [offset_zero, if_neg (by omega), if_pos (by omega), List.drop_zero]
          rfl
        | succ index =>
          rw [offset_cons_succ, if_neg (by omega), if_neg (by omega)]
          rfl

end PipeCodec.Wire
