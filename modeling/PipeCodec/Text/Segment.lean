/-!
# Segments closed by a mark

A mark closes the run of items before it.  `cutAfter` gives the first segment with its mark and
what follows it; `splitAfter` gives all segments.  A last run that no mark closes is a segment
too, unless it is empty, so the segments put together are the whole list again.
-/

set_option autoImplicit false

namespace PipeCodec.Segment

variable {α : Type} [DecidableEq α]

/-- The items through the first mark, and the items after it. -/
def cutAfter (mark : α) : List α → List α × List α
  | [] => ([], [])
  | x :: rest =>
    if x = mark then ([x], rest)
    else
      let (segment, after) := cutAfter mark rest
      (x :: segment, after)

/-- Puts an item in front of the first segment. -/
def extendFirst {β : Type} (x : β) : List (List β) → List (List β)
  | [] => [[x]]
  | segment :: more => (x :: segment) :: more

def splitAfter (mark : α) : List α → List (List α)
  | [] => []
  | x :: rest =>
    if x = mark then [x] :: splitAfter mark rest
    else extendFirst x (splitAfter mark rest)

/-- The list without the items at its end that satisfy the test. -/
def dropEndWhile {β : Type} (test : β → Bool) (items : List β) : List β :=
  (items.reverse.dropWhile test).reverse

/-- The list without its last item, if that is the given one. -/
def dropFinal (x : α) (items : List α) : List α :=
  if items.getLast? = some x then items.dropLast else items

/-- A segment without its closing line feed, if it has one, and then without one carriage return
before that.  A carriage return that no line feed follows stays. -/
def dropLineEnd (lineFeed carriageReturn : α) (line : List α) : List α :=
  if line.getLast? = some lineFeed then dropFinal carriageReturn line.dropLast else line

theorem cutAfter_append (mark : α) (items : List α) :
    (cutAfter mark items).1 ++ (cutAfter mark items).2 = items := by
  induction items with
  | nil => rfl
  | cons x rest ih =>
    by_cases closes : x = mark
    · simp [cutAfter, closes]
    · simp [cutAfter, closes, ih]

theorem cutAfter_fst_ne_nil (mark : α) (items : List α) (some_item : items ≠ []) :
    (cutAfter mark items).1 ≠ [] := by
  cases items with
  | nil => exact absurd rfl some_item
  | cons x rest => by_cases closes : x = mark <;> simp [cutAfter, closes]

/-- Cutting a segment off leaves fewer items. -/
theorem cutAfter_shorter (mark : α) (items : List α) (some_item : items ≠ []) :
    (cutAfter mark items).2.length < items.length := by
  have total := congrArg List.length (cutAfter_append mark items)
  have first := List.length_pos_iff.mpr (cutAfter_fst_ne_nil mark items some_item)
  simp only [List.length_append] at total
  omega

end PipeCodec.Segment
