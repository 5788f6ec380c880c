import Mathlib.Data.List.DropRight
import PipeCodec.Link.Feed
import PipeCodec.Proofs.Text.OneLine
import PipeCodec.Proofs.Text.Segment

/-!
# Lines of bytes

The segments of a list put together are the list again, and each part of the row of segments is the
row of its own.  The lines of a text are texts, because a line feed is no part of another character.
Two ways to drop the end of a line meet once the carriage returns that are left at the end are
dropped too: the line feed with one carriage return before it, or all that could end a line.
-/

set_option autoImplicit false

namespace PipeCodec

/-! ## Rows of segments -/

namespace Segment

variable {α : Type} [DecidableEq α]

theorem flatten_splitAfter (mark : α) (items : List α) :
    (splitAfter mark items).flatten = items := by
  induction items using segment_induction mark with
  | unclosed items absent =>
    by_cases nothing : items = []
    · rw [nothing]
      rfl
    · rw [splitAfter_of_notMem absent nothing, List.flatten_singleton]
  | closed before after absent ih =>
    rw [splitAfter_append_mark after absent, List.flatten_cons, ih, List.append_assoc,
      List.singleton_append]

theorem splitAfter_flatten_back {mark : α} {back : List (List α)} (front : List (List α)) :
    ∀ {items : List α}, splitAfter mark items = front ++ back →
      splitAfter mark back.flatten = back := by
  induction front with
  | nil =>
    intro items row
    rw [List.nil_append] at row
    rw [← row, flatten_splitAfter]
  | cons segment front ih =>
    intro items row
    have someItem : items ≠ [] := by
      rintro rfl
      cases row
    rw [splitAfter_eq_cons someItem, List.cons_append] at row
    exact ih (List.cons.inj row).2

theorem splitAfter_flatten_front {mark : α} {back : List (List α)} (front : List (List α)) :
    ∀ {items : List α}, splitAfter mark items = front ++ back →
      splitAfter mark front.flatten = front := by
  induction front with
  | nil =>
    intro items row
    rfl
  | cons segment front ih =>
    intro items row
    by_cases closed : mark ∈ items
    · obtain ⟨before, after, rfl, absent⟩ := List.eq_append_cons_of_mem closed
      rw [splitAfter_append_mark after absent, List.cons_append] at row
      obtain ⟨rfl, others⟩ := List.cons.inj row
      rw [List.flatten_cons, List.append_assoc, List.singleton_append,
        splitAfter_append_mark front.flatten absent, ih others]
    · -- Without a mark there is one segment, so nothing stands behind it.
      have someItem : items ≠ [] := by
        rintro rfl
        cases row
      rw [splitAfter_of_notMem closed someItem] at row
      obtain ⟨rfl, nothing⟩ := List.cons.inj row
      rw [(List.append_eq_nil_iff.mp nothing.symm).1, List.flatten_cons, List.flatten_nil,
        List.append_nil, splitAfter_of_notMem closed someItem]

theorem splitAfter_flatMap {mark : α} {bodies : List (List α)}
    (absent : ∀ body ∈ bodies, mark ∉ body) :
    splitAfter mark (bodies.flatMap (· ++ [mark])) = bodies.map (· ++ [mark]) := by
  induction bodies with
  | nil => rfl
  | cons body bodies ih =>
    obtain ⟨own, others⟩ := List.forall_mem_cons.mp absent
    rw [List.flatMap_cons, List.append_assoc, List.singleton_append, splitAfter_append_mark _ own,
      ih others, List.map_cons]

/-! ## Dropping the end of a line -/

theorem rdropWhile_dropFinal (x : α) (items : List α) :
    (dropFinal x items).rdropWhile (· = x) = items.rdropWhile (· = x) := by
  rw [dropFinal]
  split
  · next last =>
    obtain ⟨front, rfl⟩ := List.getLast?_eq_some_iff.mp last
    rw [List.dropLast_concat, List.rdropWhile_concat_pos _ _ _ (by simp)]
  · rfl

theorem rdropWhile_or_of_notMem {x y : α} {items : List α} (absent : y ∉ items) :
    items.rdropWhile (fun item => item = x ∨ item = y) = items.rdropWhile (· = x) := by
  induction items using List.reverseRecOn with
  | nil => rfl
  | append_singleton front last ih =>
    rw [List.mem_append, List.mem_singleton, not_or] at absent
    have other : last ≠ y := Ne.symm absent.2
    rw [List.rdropWhile_concat, List.rdropWhile_concat, ih absent.1]
    simp only [other, or_false]

/-- All that could end a line is its own end and the carriage returns before that. -/
theorem rdropWhile_lineEnd {lineFeed : α} (carriageReturn : α) {line : List α}
    (absent : lineFeed ∉ line.dropLast) :
    line.rdropWhile (fun item => item = carriageReturn ∨ item = lineFeed) =
      (dropLineEnd lineFeed carriageReturn line).rdropWhile (· = carriageReturn) := by
  rcases List.eq_nil_or_concat line with rfl | ⟨front, last, rfl⟩
  · rfl
  · rw [List.concat_eq_append] at absent ⊢
    rw [List.dropLast_concat] at absent
    by_cases closed : last = lineFeed
    · rw [closed, List.rdropWhile_concat_pos _ _ _ (by simp), dropLineEnd_append_lineFeed,
        rdropWhile_dropFinal, rdropWhile_or_of_notMem absent]
    · have nowhere : lineFeed ∉ front ++ [last] := by
        rw [List.mem_append, List.mem_singleton, not_or]
        exact ⟨absent, Ne.symm closed⟩
      rw [dropLineEnd_of_notMem _ nowhere, rdropWhile_or_of_notMem nowhere]

end Segment

/-! ## The lines of a text -/

namespace Utf8

theorem encodeChars_append (left right : List Char) :
    encodeChars (left ++ right) = encodeChars left ++ encodeChars right :=
  List.flatMap_append

theorem lineFeed_notMem_encodeChars {chars : List Char} (absent : '\n' ∉ chars) :
    Feed.lineFeed ∉ encodeChars chars := by
  have bytewise := (lineFeed_notMem_encode_iff (String.ofList chars)).mpr
  rw [OneLine, encode, String.toList_ofList] at bytewise
  exact bytewise absent

theorem exists_chars_of_mem_splitAfter {line : Bytes} (chars : List Char) :
    line ∈ Segment.splitAfter Feed.lineFeed (encodeChars chars) →
      ∃ own, line = encodeChars own := by
  induction chars using Segment.segment_induction '\n' with
  | unclosed chars absent =>
    intro among
    by_cases nothing : encodeChars chars = []
    · rw [nothing] at among
      cases among
    · rw [Segment.splitAfter_of_notMem (lineFeed_notMem_encodeChars absent) nothing] at among
      exact ⟨chars, List.mem_singleton.mp among⟩
  | closed before after absent ih =>
    have split : encodeChars (before ++ '\n' :: after) =
        encodeChars before ++ Feed.lineFeed :: encodeChars after :=
      encodeChars_append before ('\n' :: after)
    rw [split, Segment.splitAfter_append_mark _ (lineFeed_notMem_encodeChars absent)]
    intro among
    rcases List.mem_cons.mp among with rfl | later
    · exact ⟨before ++ ['\n'], (encodeChars_append before ['\n']).symm⟩
    · exact ih later

theorem exists_text_of_mem_splitAfter {input line : Bytes} {text : String}
    (valid : decode? input = some text)
    (among : line ∈ Segment.splitAfter Feed.lineFeed input) : ∃ own, decode? line = some own := by
  rw [← encode_of_decode? valid] at among
  obtain ⟨own, rfl⟩ := exists_chars_of_mem_splitAfter text.toList among
  refine ⟨String.ofList own, ?_⟩
  have written : encodeChars own = encode (String.ofList own) := by
    rw [encode, String.toList_ofList]
  rw [written, decode?_encode]

theorem lineEnd_of_mem_utf8EncodeChar {c : Char} {byte : UInt8}
    (part : byte ∈ String.utf8EncodeChar c)
    (ends : byte = Feed.carriageReturn ∨ byte = Feed.lineFeed) : c = '\r' ∨ c = '\n' := by
  rcases ends with rfl | rfl
  · left
    apply Char.toNat_inj.mp
    exact toNat_of_mem_utf8EncodeChar part (by decide)
  · right
    apply Char.toNat_inj.mp
    exact toNat_of_mem_utf8EncodeChar part (by decide)

/-- Line ends are dropped from a text as they are dropped from its bytes. -/
theorem encodeChars_rdropWhile (chars : List Char) :
    encodeChars (chars.rdropWhile fun c => c = '\r' ∨ c = '\n') =
      (encodeChars chars).rdropWhile
        fun byte => byte = Feed.carriageReturn ∨ byte = Feed.lineFeed := by
  induction chars using List.reverseRecOn with
  | nil => rfl
  | append_singleton front last ih =>
    rw [encodeChars_append]
    by_cases ends : last = '\r' ∨ last = '\n'
    · have single : ∃ byte, encodeChars [last] = [byte] ∧
          (byte = Feed.carriageReturn ∨ byte = Feed.lineFeed) := by
        rcases ends with rfl | rfl
        · exact ⟨Feed.carriageReturn, rfl, Or.inl rfl⟩
        · exact ⟨Feed.lineFeed, rfl, Or.inr rfl⟩
      obtain ⟨byte, written, dropped⟩ := single
      rw [List.rdropWhile_concat_pos _ _ _ (by simpa using ends), ih, written,
        List.rdropWhile_concat_pos _ _ _ (by simpa using dropped)]
    · have someByte := String.utf8EncodeChar_ne_nil (c := last)
      obtain ⟨start, byte, bytes⟩ := (List.eq_nil_or_concat _).resolve_left someByte
      rw [List.concat_eq_append] at bytes
      have written : encodeChars [last] = start ++ [byte] :=
        (List.flatMap_singleton _ _).trans bytes
      have part : byte ∈ String.utf8EncodeChar last := by
        rw [bytes]
        exact List.mem_append_right start (List.mem_singleton_self byte)
      have kept := mt (lineEnd_of_mem_utf8EncodeChar part) ends
      rw [List.rdropWhile_concat_neg _ _ _ (by simpa using ends), encodeChars_append, written,
        ← List.append_assoc, List.rdropWhile_concat_neg _ _ _ (by simpa using kept)]

theorem head?_encode_iff {c : Char} (low : c.toNat < 0x80) (text : String) :
    (encode text).head? = some (UInt8.ofNat c.toNat) ↔ text.toList.head? = some c := by
  rw [encode]
  cases text.toList with
  | nil =>
    constructor
    · intro begins
      cases begins
    · intro begins
      cases begins
  | cons first rest =>
    obtain ⟨byte, more, written⟩ := List.exists_cons_of_ne_nil
      (String.utf8EncodeChar_ne_nil (c := first))
    have part : byte ∈ String.utf8EncodeChar first := by
      rw [written]
      exact List.mem_cons_self
    have leading : (encodeChars (first :: rest)).head? = some byte := by
      rw [encodeChars, List.flatMap_cons, written]
      rfl
    rw [leading, List.head?_cons, Option.some.injEq, Option.some.injEq]
    constructor
    · rintro rfl
      have small : (UInt8.ofNat c.toNat).toNat = c.toNat := by
        rw [UInt8.toNat_ofNat']
        omega
      apply Char.toNat_inj.mp
      rw [toNat_of_mem_utf8EncodeChar part (by omega), small]
    · rintro rfl
      rw [utf8EncodeChar_ascii low] at part
      exact List.mem_singleton.mp part

end Utf8

end PipeCodec
