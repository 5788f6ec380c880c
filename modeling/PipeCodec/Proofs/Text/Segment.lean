import PipeCodec.Text.Segment

/-!
# Cutting at the first mark

Whether a list holds the mark decides how it is cut: through the first mark, or not at all.  All
segments follow from the first one and the rest behind it.
-/

set_option autoImplicit false

namespace PipeCodec.Segment

variable {α : Type} [DecidableEq α]

theorem bne_of_notMem {mark : α} {items : List α} (absent : mark ∉ items) :
    ∀ x ∈ items, (x != mark) = true := by
  intro x member
  rw [bne_iff_ne]
  rintro rfl
  exact absent member

theorem cutAfter_of_notMem {mark : α} {items : List α} (absent : mark ∉ items) :
    cutAfter mark items = (items, []) := by
  induction items with
  | nil => rfl
  | cons x rest ih =>
    have other : x ≠ mark := (List.ne_of_not_mem_cons absent).symm
    have further := ih (List.not_mem_of_not_mem_cons absent)
    simp only [cutAfter, if_neg other, further]

theorem cutAfter_append_mark {mark : α} {before : List α} (after : List α)
    (absent : mark ∉ before) :
    cutAfter mark (before ++ mark :: after) = (before ++ [mark], after) := by
  induction before with
  | nil => simp only [List.nil_append, cutAfter, if_pos]
  | cons x rest ih =>
    have other : x ≠ mark := (List.ne_of_not_mem_cons absent).symm
    have further := ih (List.not_mem_of_not_mem_cons absent)
    simp only [List.cons_append, cutAfter, if_neg other, further]

theorem mem_cutAfter {mark : α} {items : List α} (present : mark ∈ items) :
    mark ∈ (cutAfter mark items).1 := by
  obtain ⟨before, after, rfl, absent⟩ := List.eq_append_cons_of_mem present
  rw [cutAfter_append_mark after absent]
  exact List.mem_append_right before List.mem_cons_self

theorem splitAfter_append_mark {mark : α} {before : List α} (after : List α)
    (absent : mark ∉ before) :
    splitAfter mark (before ++ mark :: after) = (before ++ [mark]) :: splitAfter mark after := by
  induction before with
  | nil => simp only [List.nil_append, splitAfter, if_pos]
  | cons x rest ih =>
    have other : x ≠ mark := (List.ne_of_not_mem_cons absent).symm
    have further := ih (List.not_mem_of_not_mem_cons absent)
    simp only [List.cons_append, splitAfter, if_neg other, further, extendFirst]

theorem splitAfter_of_notMem {mark : α} {items : List α} (absent : mark ∉ items)
    (someItem : items ≠ []) : splitAfter mark items = [items] := by
  induction items with
  | nil => exact absurd rfl someItem
  | cons x rest ih =>
    have other : x ≠ mark := (List.ne_of_not_mem_cons absent).symm
    simp only [splitAfter, if_neg other]
    cases rest with
    | nil => rfl
    | cons y more =>
      rw [ih (List.not_mem_of_not_mem_cons absent) (List.cons_ne_nil y more)]
      rfl

/-- What holds of a list without the mark, and of a list through its first mark if it holds of what
follows, holds of every list. -/
@[elab_as_elim]
theorem segment_induction (mark : α) {motive : List α → Prop}
    (unclosed : ∀ items, mark ∉ items → motive items)
    (closed : ∀ before after, mark ∉ before → motive after → motive (before ++ mark :: after))
    (items : List α) : motive items := by
  induction size : items.length using Nat.strongRecOn generalizing items with
  | ind n ih =>
    by_cases present : mark ∈ items
    · obtain ⟨before, after, rfl, absent⟩ := List.eq_append_cons_of_mem present
      have shorter : after.length < n := by
        rw [List.length_append, List.length_cons] at size
        omega
      exact closed before after absent (ih after.length shorter after rfl)
    · exact unclosed items present

theorem splitAfter_eq_cons {mark : α} {items : List α} (someItem : items ≠ []) :
    splitAfter mark items =
      (cutAfter mark items).1 :: splitAfter mark (cutAfter mark items).2 := by
  by_cases present : mark ∈ items
  · obtain ⟨before, after, rfl, absent⟩ := List.eq_append_cons_of_mem present
    rw [splitAfter_append_mark after absent, cutAfter_append_mark after absent]
  · rw [splitAfter_of_notMem present someItem, cutAfter_of_notMem present]
    rfl

theorem head?_splitAfter (mark : α) (items : List α) :
    (splitAfter mark items).head?.getD [] = (cutAfter mark items).1 := by
  by_cases nothing : items = []
  · rw [nothing]
    rfl
  · rw [splitAfter_eq_cons nothing]
    rfl

theorem tail_splitAfter (mark : α) (items : List α) :
    (splitAfter mark items).tail = splitAfter mark (cutAfter mark items).2 := by
  by_cases nothing : items = []
  · rw [nothing]
    rfl
  · rw [splitAfter_eq_cons nothing, List.tail_cons]

/-- A segment is not empty, and the mark stands nowhere in it but at its end. -/
theorem mem_splitAfter_cases {mark : α} {segment : List α} (items : List α) :
    segment ∈ splitAfter mark items →
      segment ≠ [] ∧ mark ∉ segment ∨ ∃ before, mark ∉ before ∧ segment = before ++ [mark] := by
  induction items using segment_induction mark with
  | unclosed items absent =>
    intro among
    by_cases nothing : items = []
    · rw [nothing] at among
      cases among
    · rw [splitAfter_of_notMem absent nothing, List.mem_singleton] at among
      rw [among]
      exact Or.inl ⟨nothing, absent⟩
  | closed before after absent ih =>
    intro among
    rw [splitAfter_append_mark after absent] at among
    rcases List.mem_cons.mp among with rfl | later
    · exact Or.inr ⟨before, absent, rfl⟩
    · exact ih later

theorem notMem_dropLast_of_mem_splitAfter {mark : α} {items segment : List α}
    (among : segment ∈ splitAfter mark items) : mark ∉ segment.dropLast := by
  rcases mem_splitAfter_cases items among with ⟨-, absent⟩ | ⟨before, absent, rfl⟩
  · exact fun inside => absent (List.dropLast_subset segment inside)
  · rwa [List.dropLast_concat]

theorem ne_nil_of_mem_splitAfter {mark : α} {items segment : List α}
    (among : segment ∈ splitAfter mark items) : segment ≠ [] := by
  rcases mem_splitAfter_cases items among with ⟨someItem, -⟩ | ⟨before, -, rfl⟩
  · exact someItem
  · exact List.concat_ne_nil _ _

theorem dropFinal_concat (x : α) (items : List α) : dropFinal x (items ++ [x]) = items := by
  rw [dropFinal, List.getLast?_concat, if_pos rfl, List.dropLast_concat]

theorem dropFinal_of_getLast? {x : α} {items : List α} (other : items.getLast? ≠ some x) :
    dropFinal x items = items := by
  rw [dropFinal, if_neg other]

theorem dropFinal_cons (x y : α) {items : List α} (someItem : items ≠ []) :
    dropFinal x (y :: items) = y :: dropFinal x items := by
  obtain ⟨first, rest, rfl⟩ := List.exists_cons_of_ne_nil someItem
  simp only [dropFinal, List.getLast?_cons_cons, List.dropLast_cons_cons]
  split
  · rfl
  · rfl

theorem dropLineEnd_append_lineFeed (lineFeed carriageReturn : α) (line : List α) :
    dropLineEnd lineFeed carriageReturn (line ++ [lineFeed]) = dropFinal carriageReturn line := by
  rw [dropLineEnd, List.getLast?_concat, if_pos rfl, List.dropLast_concat]

theorem dropLineEnd_of_notMem {lineFeed : α} (carriageReturn : α) {line : List α}
    (absent : lineFeed ∉ line) : dropLineEnd lineFeed carriageReturn line = line := by
  have other : line.getLast? ≠ some lineFeed := fun last => absent (List.mem_of_getLast? last)
  rw [dropLineEnd, if_neg other]

end PipeCodec.Segment
