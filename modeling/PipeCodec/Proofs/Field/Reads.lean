import PipeCodec.Proofs.Layout.Positional

/-!
# Reads in a row

Behind the tag, fields are read one after the other, whatever becomes of each read.  Every read
moves on by one piece, also where the piece is refused and where none is left.  So a read is told by
the piece at its own position alone: neither the reads before it nor the other pieces have a part in
it.
-/

set_option autoImplicit false

namespace PipeCodec

def FieldKind.missing : FieldKind → Value
  | .text => .text none
  | .integer => .integer 0

theorem Value.ofSpan_none (integers : IntegerRule) (field : Field) :
    Value.ofSpan integers field none = .ok field.kind.missing := by
  rw [Value.ofSpan]
  cases field.kind with
  | text => rfl
  | integer => rfl

namespace Cursor

theorem enter_eq_ok_iff {bytes : Bytes} {tag : String} {integers : IntegerRule} {cursor : Cursor} :
    enter bytes tag integers = .ok cursor ↔
      ∃ rest, Wire.nextSpan? bytes = some (Utf8.encode tag, rest) ∧ cursor = ⟨rest, integers⟩ := by
  rw [enter]
  cases found : Wire.nextSpan? bytes with
  | none => simp
  | some next =>
    obtain ⟨span, rest⟩ := next
    by_cases own : span = Utf8.encode tag
    · simp [own, eq_comm]
    · simp [own]

theorem pieces_of_enter {bytes : Bytes} {tag : String} {integers : IntegerRule} {cursor : Cursor}
    (entered : enter bytes tag integers = .ok cursor) :
    cursor.integers = integers ∧
      Wire.pieces bytes = Utf8.encode tag :: Wire.spans cursor.rest := by
  obtain ⟨rest, found, rfl⟩ := enter_eq_ok_iff.mp entered
  rw [← Wire.spans_eq_pieces]
  exact ⟨rfl, Wire.spans_of_some found⟩

/-- Reads one field after the other.  A read that fails is reported, and the next one goes on behind
what it was refused. -/
def readEach : List Field → Cursor → List (Except WireError Value) × Cursor
  | [], cursor => ([], cursor)
  | field :: fields, cursor =>
    let (outcome, moved) := (Value.read field).run.run cursor
    let (outcomes, final) := readEach fields moved
    (outcome :: outcomes, final)

theorem readEach_cons (field : Field) (fields : List Field) (cursor : Cursor) :
    readEach (field :: fields) cursor =
      (Value.ofSpan cursor.integers field (Wire.spans cursor.rest).head? ::
          (readEach fields cursor.advance.2).1,
        (readEach fields cursor.advance.2).2) := by
  rw [← Value.result_read, ← Value.after_read field cursor]
  rfl

/-- The outcome at a position is that of the span at this position. -/
theorem getElem?_readEach (fields : List Field) : ∀ (cursor : Cursor) (index : Nat),
    (readEach fields cursor).1[index]? = fields[index]?.map fun field =>
      Value.ofSpan cursor.integers field (Wire.spans cursor.rest)[index]? := by
  induction fields with
  | nil => intro cursor index; rfl
  | cons field fields ih =>
    intro cursor index
    rw [readEach_cons]
    cases index with
    | zero => simp only [List.getElem?_cons_zero, List.head?_eq_getElem?, Option.map_some]
    | succ index =>
      rw [List.getElem?_cons_succ, List.getElem?_cons_succ, ih, advance_integers, spans_advance]
      simp only [List.getElem?_tail]

theorem readEach_eq_mapIdx {bytes : Bytes} {tag : String} {integers : IntegerRule}
    {cursor : Cursor} (entered : enter bytes tag integers = .ok cursor) (reads : List Field) :
    (readEach reads cursor).1 = reads.mapIdx fun index field =>
      Value.ofSpan integers field (Wire.pieces bytes)[index + 1]? := by
  obtain ⟨rule, row⟩ := pieces_of_enter entered
  apply List.ext_getElem?
  intro index
  rw [getElem?_readEach, List.getElem?_mapIdx, rule, row]
  rfl

/-- There is one function of the rule for integers, of a field and of the piece at its position that
tells every read, whatever was read before it and whatever the other pieces are. -/
theorem each_read_is_told_by_its_own_piece :
    (∃ told : IntegerRule → Field → Option Bytes → Except WireError Value,
      (∀ (integers : IntegerRule) (field : Field) (piece : Option Bytes),
        field.Takes integers piece (told integers field piece)) ∧
      (∀ (integers : IntegerRule) (field : Field),
        told integers field none = .ok field.kind.missing) ∧
      ∀ (bytes : Bytes) (tag : String) (integers : IntegerRule) (cursor : Cursor),
        enter bytes tag integers = .ok cursor → ∀ reads : List Field,
          (readEach reads cursor).1 = reads.mapIdx fun index field =>
            told integers field (Wire.pieces bytes)[index + 1]?) ∧
    ∀ (bytes other : Bytes) (tag otherTag : String) (integers : IntegerRule)
      (cursor otherCursor : Cursor), enter bytes tag integers = .ok cursor →
        enter other otherTag integers = .ok otherCursor →
        ∀ (reads otherReads : List Field) (index : Nat), reads[index]? = otherReads[index]? →
          (Wire.pieces bytes)[index + 1]? = (Wire.pieces other)[index + 1]? →
            (readEach reads cursor).1[index]? = (readEach otherReads otherCursor).1[index]? := by
  refine ⟨⟨Value.ofSpan, Field.takes_ofSpan, Value.ofSpan_none, ?_⟩, ?_⟩
  · intro bytes tag integers cursor entered reads
    exact readEach_eq_mapIdx entered reads
  · intro bytes other tag otherTag integers cursor otherCursor entered otherEntered reads otherReads
      index sameRead samePiece
    rw [readEach_eq_mapIdx entered, readEach_eq_mapIdx otherEntered, List.getElem?_mapIdx,
      List.getElem?_mapIdx, sameRead, samePiece]

/-- Behind a malformed text and a malformed integer the third piece is read as behind others. -/
theorem third_read_behind_refused_ones :
    enter (Utf8.encode "T|" ++ [0xFF] ++ Utf8.encode "|x1|12") "T" .exact =
        .ok ⟨[0xFF] ++ Utf8.encode "|x1|12", .exact⟩ ∧
      enter (Utf8.encode "||7|12|z|") "" .exact = .ok ⟨Utf8.encode "|7|12|z|", .exact⟩ ∧
      (readEach [⟨"a", .text⟩, ⟨"b", .integer⟩, ⟨"c", .integer⟩]
          ⟨[0xFF] ++ Utf8.encode "|x1|12", .exact⟩).1[2]? =
        (readEach [⟨"c", .integer⟩, ⟨"b", .text⟩, ⟨"c", .integer⟩, ⟨"d", .text⟩]
          ⟨Utf8.encode "|7|12|z|", .exact⟩).1[2]? := by
  have entered : enter (Utf8.encode "T|" ++ [0xFF] ++ Utf8.encode "|x1|12") "T" .exact =
      .ok ⟨[0xFF] ++ Utf8.encode "|x1|12", .exact⟩ :=
    enter_eq_ok_iff.mpr ⟨_, by decide +kernel, rfl⟩
  have otherEntered : enter (Utf8.encode "||7|12|z|") "" .exact =
      .ok ⟨Utf8.encode "|7|12|z|", .exact⟩ :=
    enter_eq_ok_iff.mpr ⟨_, by decide +kernel, rfl⟩
  refine ⟨entered, otherEntered, ?_⟩
  exact each_read_is_told_by_its_own_piece.2 _ _ _ _ _ _ _ entered otherEntered _ _ 2 rfl
    (by decide +kernel)

end Cursor

end PipeCodec
