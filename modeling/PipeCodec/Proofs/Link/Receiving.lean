import Mathlib.Control.Monad.Basic
import PipeCodec.Link.Connection
import PipeCodec.Proofs.Text.Segment

/-!
# Receiving from a plain stream of items

A feed fetches blocks and holds what is left of them.  A reader without any buffer sees one item
after the other: a byte, an end of the stream or a failure; interruptions are no items.  Each
receive uses the items through the first that closes a stretch, and the stretch alone decides the
result.  The invariant that relates the two is `Feed.items`: held bytes first, then what the
deliveries bring.
-/

set_option autoImplicit false

namespace PipeCodec

inductive Item where
  | byte (value : UInt8)
  | ended
  | failed (cause : Failure)
  deriving DecidableEq

/-- Data that holds no byte is an end of the stream. -/
def Delivery.items : Delivery → List Item
  | data [] => [.ended]
  | data (byte :: bytes) => (byte :: bytes).map .byte
  | failed cause => [.failed cause]
  | interrupted => []

def Feed.items (feed : Feed) : List Item :=
  feed.held.map .byte ++ feed.deliveries.flatMap Delivery.items

inductive Closing where
  | lineFeed
  | ended
  | failed (cause : Failure)
  deriving DecidableEq

structure Stretch where
  bytes : Bytes
  closing : Closing
  deriving DecidableEq

namespace Stretch

/-- The first stretch and the items after it; behind the last item the stream is at its end. -/
def next : List Item → Stretch × List Item
  | [] => (⟨[], .ended⟩, [])
  | .ended :: later => (⟨[], .ended⟩, later)
  | .failed cause :: later => (⟨[], .failed cause⟩, later)
  | .byte value :: later =>
    if value = Feed.lineFeed then (⟨[], .lineFeed⟩, later)
    else
      let (stretch, rest) := next later
      (⟨value :: stretch.bytes, stretch.closing⟩, rest)

def first : Nat → List Item → List Stretch
  | 0, _ => []
  | count + 1, items => (next items).1 :: first count (next items).2

def decode (settings : Settings) (bytes : Bytes) : Except LinkError Message :=
  match Message.decode settings bytes with
  | .error cause => .error (.wire cause)
  | .ok message => .ok message

/-- Only a line feed takes a carriage return with it, and only a failure takes the bytes. -/
def message (settings : Settings) : Stretch → Except LinkError Message
  | ⟨bytes, .lineFeed⟩ => decode settings (Segment.dropFinal Feed.carriageReturn bytes)
  | ⟨[], .ended⟩ => .error .closed
  | ⟨byte :: bytes, .ended⟩ => decode settings (byte :: bytes)
  | ⟨_, .failed cause⟩ => .error (.failed cause)

def line (taken : Bytes) : Stretch → Except Failure Bytes
  | ⟨bytes, .lineFeed⟩ => .ok (taken ++ (bytes ++ [Feed.lineFeed]))
  | ⟨bytes, .ended⟩ => .ok (taken ++ bytes)
  | ⟨_, .failed cause⟩ => .error cause

theorem line_append (taken bytes : Bytes) (stretch : Stretch) :
    line (taken ++ bytes) stretch = line taken ⟨bytes ++ stretch.bytes, stretch.closing⟩ := by
  obtain ⟨more, closing⟩ := stretch
  cases closing with
  | lineFeed => simp only [line, List.append_assoc]
  | ended => simp only [line, List.append_assoc]
  | failed cause => rfl

theorem next_byte {value : UInt8} (later : List Item) (other : value ≠ Feed.lineFeed) :
    next (.byte value :: later) =
      (⟨value :: (next later).1.bytes, (next later).1.closing⟩, (next later).2) := by
  rw [next, if_neg other]

theorem next_lineFeed (later : List Item) :
    next (.byte Feed.lineFeed :: later) = (⟨[], .lineFeed⟩, later) := by
  rw [next, if_pos rfl]

theorem next_bytes {bytes : Bytes} (later : List Item) (absent : Feed.lineFeed ∉ bytes) :
    next (bytes.map .byte ++ later) =
      (⟨bytes ++ (next later).1.bytes, (next later).1.closing⟩, (next later).2) := by
  induction bytes with
  | nil => rfl
  | cons byte rest ih =>
    have other : byte ≠ Feed.lineFeed := (List.ne_of_not_mem_cons absent).symm
    have further := ih (List.not_mem_of_not_mem_cons absent)
    rw [List.map_cons, List.cons_append, next_byte _ other, further]
    rfl

theorem lineFeed_notMem_next (items : List Item) : Feed.lineFeed ∉ (next items).1.bytes := by
  induction items with
  | nil => exact List.not_mem_nil
  | cons item later ih =>
    cases item with
    | ended => exact List.not_mem_nil
    | failed cause => exact List.not_mem_nil
    | byte value =>
      by_cases closes : value = Feed.lineFeed
      · rw [closes, next_lineFeed]
        exact List.not_mem_nil
      · rw [next_byte later closes]
        intro member
        rcases List.mem_cons.mp member with same | among
        · exact closes same.symm
        · exact ih among

end Stretch

/-! ## One line of a feed -/

namespace Feed

theorem items_afterBlock (bytes : Bytes) (later : List Delivery) (someByte : bytes ≠ []) :
    Feed.items ⟨bytes.take blockSize, afterBlock bytes later⟩ =
      Feed.items ⟨[], .data bytes :: later⟩ := by
  have whole := List.take_append_drop blockSize bytes
  cases bytes with
  | nil => exact absurd rfl someByte
  | cons byte rest =>
    cases left : (byte :: rest).drop blockSize with
    | nil =>
      rw [left, List.append_nil] at whole
      simp only [items, afterBlock, left, whole, List.map_nil, List.nil_append,
        List.flatMap_cons, Delivery.items]
    | cons other more =>
      rw [left] at whole
      simp only [items, afterBlock, left, List.map_nil, List.nil_append, List.flatMap_cons,
        Delivery.items]
      rw [← List.append_assoc, ← List.map_append, whole]

/-- Extending what was taken so far by the next line is extending it by the next stretch. -/
theorem takeLine_eq_next (taken : Bytes) (feed : Feed) :
    (takeLine taken feed).1 = (Stretch.next feed.items).1.line taken ∧
      (takeLine taken feed).2.items = (Stretch.next feed.items).2 := by
  fun_induction takeLine taken feed with
  | case1 taken byte held deliveries cut inside =>
    have present : lineFeed ∈ byte :: held := by
      rw [← Segment.cutAfter_append lineFeed (byte :: held)]
      exact List.mem_append_left _ inside
    obtain ⟨before, after, split, absent⟩ := List.eq_append_cons_of_mem present
    have cutExact : cut = (before ++ [lineFeed], after) := by
      rw [show cut = Segment.cutAfter lineFeed (byte :: held) from rfl, split]
      exact Segment.cutAfter_append_mark after absent
    have itemsExact : Feed.items ⟨byte :: held, deliveries⟩ =
        before.map .byte ++ .byte lineFeed :: Feed.items ⟨after, deliveries⟩ := by
      simp only [items, split, List.map_append, List.map_cons, List.append_assoc,
        List.cons_append]
    rw [itemsExact, Stretch.next_bytes _ absent, Stretch.next_lineFeed, cutExact]
    simp only [Stretch.line, List.append_nil, and_self]
  | case2 taken byte held deliveries cut outside ih =>
    -- Nothing held closes the line, so all of it is taken and the line goes on in the deliveries.
    have absent : lineFeed ∉ byte :: held := fun present => outside (Segment.mem_cutAfter present)
    have cutExact : cut = (byte :: held, []) := Segment.cutAfter_of_notMem absent
    have itemsExact : Feed.items ⟨byte :: held, deliveries⟩ =
        (byte :: held).map .byte ++ Feed.items ⟨[], deliveries⟩ := rfl
    rw [cutExact] at ih ⊢
    rw [itemsExact, Stretch.next_bytes _ absent, ← Stretch.line_append]
    exact ih
  | case3 taken => exact ⟨congrArg Except.ok (List.append_nil taken).symm, rfl⟩
  | case4 taken later ih => exact ih
  | case5 taken cause later => exact ⟨rfl, rfl⟩
  | case6 taken later => exact ⟨congrArg Except.ok (List.append_nil taken).symm, rfl⟩
  | case7 taken byte bytes later ih =>
    -- What does not fit into the block is put back as a delivery, so no item is lost.
    rw [items_afterBlock (byte :: bytes) later (List.cons_ne_nil byte bytes)] at ih
    exact ih

end Feed

/-! ## Whole runs -/

namespace Connection

def receiveTimes : Nat → Connection → List (Except LinkError Message) × Connection
  | 0, connection => ([], connection)
  | count + 1, connection =>
    let (result, moved) := connection.receive
    let (results, final) := receiveTimes count moved
    (result :: results, final)

theorem ofLine_of_ne_nil (settings : Settings) {line : Bytes} (someByte : line ≠ []) :
    ofLine settings line =
      Stretch.decode settings (Segment.dropLineEnd Feed.lineFeed Feed.carriageReturn line) := by
  cases line with
  | nil => exact absurd rfl someByte
  | cons byte rest => rfl

theorem ofLine_line (settings : Settings) {stretch : Stretch} {line : Bytes}
    (absent : Feed.lineFeed ∉ stretch.bytes) (handed : stretch.line [] = .ok line) :
    ofLine settings line = stretch.message settings := by
  obtain ⟨bytes, closing⟩ := stretch
  cases closing with
  | lineFeed =>
    cases handed
    rw [List.nil_append, ofLine_of_ne_nil settings (List.concat_ne_nil _ _),
      Segment.dropLineEnd_append_lineFeed]
    rfl
  | ended =>
    cases handed
    cases bytes with
    | nil => rfl
    | cons byte rest =>
      rw [List.nil_append, ofLine_of_ne_nil settings (List.cons_ne_nil byte rest),
        Segment.dropLineEnd_of_notMem _ absent]
      rfl
  | failed cause => cases handed

theorem message_of_failed (settings : Settings) {stretch : Stretch} {cause : Failure}
    (handed : stretch.line [] = .error cause) :
    stretch.message settings = .error (.failed cause) := by
  obtain ⟨bytes, closing⟩ := stretch
  cases closing with
  | lineFeed => cases handed
  | ended => cases handed
  | failed other =>
    cases handed
    rfl

/-- One receive uses one stretch, and the stretch decides its result. -/
theorem receive_eq_next (connection : Connection) :
    connection.receive.1 =
        (Stretch.next connection.feed.items).1.message connection.settings ∧
      connection.receive.2.feed.items = (Stretch.next connection.feed.items).2 ∧
      connection.receive.2.settings = connection.settings := by
  have taken := Feed.takeLine_eq_next [] connection.feed
  have absent := Stretch.lineFeed_notMem_next connection.feed.items
  rcases moved : connection.feed.takeLine [] with ⟨result, feed⟩
  simp only [receive, Feed.nextLine, moved]
  rw [moved] at taken
  obtain ⟨handed, left⟩ := taken
  cases result with
  | ok line => exact ⟨ofLine_line connection.settings absent handed.symm, left, rfl⟩
  | error cause => exact ⟨(message_of_failed connection.settings handed.symm).symm, left, rfl⟩

theorem receiveTimes_eq_first (count : Nat) : ∀ connection : Connection,
    (connection.receiveTimes count).1 =
      (Stretch.first count connection.feed.items).map (Stretch.message connection.settings) := by
  induction count with
  | zero => intro connection; rfl
  | succ count ih =>
    intro connection
    obtain ⟨result, left, settings⟩ := connection.receive_eq_next
    have later := ih connection.receive.2
    rw [left, settings] at later
    rw [Stretch.first, List.map_cons, ← result, ← later]
    rfl

end Connection

/-! ## A line touches no other line -/

def Item.closing? : Item → Option Closing
  | byte value => if value = Feed.lineFeed then some .lineFeed else none
  | ended => some .ended
  | failed cause => some (.failed cause)

namespace Stretch

theorem next_of_closing {item : Item} {closing : Closing} (later : List Item)
    (closes : item.closing? = some closing) : next (item :: later) = (⟨[], closing⟩, later) := by
  cases item with
  | ended =>
    cases closes
    rfl
  | failed cause =>
    cases closes
    rfl
  | byte value =>
    by_cases same : value = Feed.lineFeed
    · rw [Item.closing?, if_pos same] at closes
      cases closes
      rw [same, next_lineFeed]
    · rw [Item.closing?, if_neg same] at closes
      cases closes

theorem exists_byte_of_open {item : Item} (opens : item.closing? = none) :
    ∃ value, item = .byte value ∧ value ≠ Feed.lineFeed := by
  cases item with
  | ended => cases opens
  | failed cause => cases opens
  | byte value =>
    refine ⟨value, rfl, ?_⟩
    rintro rfl
    rw [Item.closing?, if_pos rfl] at opens
    cases opens

/-- Other bytes in one place change no stretch but the one that holds the place. -/
theorem first_local {left right : Bytes} (after : List Item) (leftFree : Feed.lineFeed ∉ left)
    (rightFree : Feed.lineFeed ∉ right) (before : List Item) : ∀ count index : Nat,
    index ≠ before.countP (·.closing?.isSome) →
    (first count (before ++ (left.map .byte ++ after)))[index]? =
      (first count (before ++ (right.map .byte ++ after)))[index]? := by
  induction before with
  | nil =>
    intro count index elsewhere
    cases count with
    | zero => rfl
    | succ count =>
      obtain ⟨index, rfl⟩ := Nat.exists_eq_succ_of_ne_zero elsewhere
      simp only [List.nil_append, first, next_bytes after leftFree, next_bytes after rightFree,
        List.getElem?_cons_succ]
  | cons item before ih =>
    intro count index elsewhere
    cases count with
    | zero => rfl
    | succ count =>
      cases closes : item.closing? with
      | some closing =>
        rw [List.countP_cons_of_pos (by rw [closes]; rfl)] at elsewhere
        simp only [List.cons_append, first, next_of_closing _ closes]
        cases index with
        | zero => rfl
        | succ index => exact ih count index (by omega)
      | none =>
        obtain ⟨value, rfl, other⟩ := exists_byte_of_open closes
        rw [List.countP_cons_of_neg (by rw [closes]; exact Bool.false_ne_true)] at elsewhere
        -- The byte extends the first stretch of what follows and changes no other stretch.
        have later := ih (count + 1) index elsewhere
        simp only [List.cons_append, first, next_byte _ other] at later ⊢
        cases index with
        | zero =>
          rw [List.getElem?_cons_zero, List.getElem?_cons_zero, Option.some.injEq] at later
          rw [List.getElem?_cons_zero, List.getElem?_cons_zero, later]
        | succ index => exact later

end Stretch

namespace Connection

/-- Any number of receives on any feed yields what a reader of single items yields.  So the results
do not depend on how the bytes were cut into deliveries, and other bytes in one line change no
result but that of the line. -/
theorem receiving_refines_reading_items :
    (∀ (connection : Connection) (count : Nat),
      (connection.receiveTimes count).1 =
        (Stretch.first count connection.feed.items).map (Stretch.message connection.settings)) ∧
    (∀ (left right : Connection) (count : Nat), left.settings = right.settings →
      left.feed.items = right.feed.items →
      (left.receiveTimes count).1 = (right.receiveTimes count).1) ∧
    ∀ (left right : Connection) (before after : List Item) (line other : Bytes)
      (count index : Nat), left.settings = right.settings →
      Feed.lineFeed ∉ line → Feed.lineFeed ∉ other →
      left.feed.items = before ++ (line.map .byte ++ after) →
      right.feed.items = before ++ (other.map .byte ++ after) →
      index ≠ before.countP (·.closing?.isSome) →
      (left.receiveTimes count).1[index]? = (right.receiveTimes count).1[index]? := by
  refine ⟨fun connection count => receiveTimes_eq_first count connection, ?_, ?_⟩
  · intro left right count sameSettings sameItems
    rw [receiveTimes_eq_first, receiveTimes_eq_first, sameSettings, sameItems]
  · intro left right before after line other count index sameSettings lineFree otherFree leftItems
      rightItems elsewhere
    rw [receiveTimes_eq_first, receiveTimes_eq_first, sameSettings, leftItems, rightItems,
      List.getElem?_map, List.getElem?_map,
      Stretch.first_local after lineFree otherFree before count index elsewhere]

theorem refused_line_leaves_the_next_line :
    ((receiveTimes 2
      ⟨⟨[], [.data (Utf8.encode "x|\nLogin"), .interrupted,
        .data (Utf8.encode "Request|a||\r\n")]⟩, .unlimited, .standard⟩).1)[1]? =
      some (.ok (.login ⟨some "a", some ""⟩)) := by
  have same := receiving_refines_reading_items.2.2
    ⟨⟨[], [.data (Utf8.encode "x|\nLogin"), .interrupted,
      .data (Utf8.encode "Request|a||\r\n")]⟩, .unlimited, .standard⟩
    ⟨⟨[], [.data (Utf8.encode "\nLoginRequest|a||\r\n")]⟩, .unlimited, .standard⟩
    [] ((Utf8.encode "\nLoginRequest|a||\r\n").map .byte) (Utf8.encode "x|") [] 2 1 rfl
    (by decide +kernel) (by decide +kernel) (by decide +kernel) (by decide +kernel) (by decide)
  rw [same, receiving_refines_reading_items.1]
  decide +kernel

end Connection

end PipeCodec
