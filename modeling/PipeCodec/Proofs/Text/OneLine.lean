import Mathlib.Tactic.SplitIfs
import PipeCodec.Decimal
import PipeCodec.Proofs.Text.Utf8
import PipeCodec.Text.Parts

/-!
# Texts that stay on one line

A quoted text spells every line feed by an escape, and numbers are digits, so whatever is laid out
from labels, numbers and quoted texts holds no line feed.  Lenient reading adds none that is not
among the bytes.
-/

set_option autoImplicit false

namespace PipeCodec

def OneLine (text : String) : Prop :=
  '\n' ∉ text.toList

instance (text : String) : Decidable (OneLine text) :=
  inferInstanceAs (Decidable ('\n' ∉ text.toList))

@[simp]
theorem oneLine_append {left right : String} :
    OneLine (left ++ right) ↔ OneLine left ∧ OneLine right := by
  simp only [OneLine, String.toList_append, List.mem_append, not_or]

/-! ## Numbers -/

theorem lineFeed_ne_digitChar : ∀ digit < 16, '\n' ≠ Nat.digitChar digit := by
  decide

/-- A digit stands at every place of a number. -/
theorem exists_digit_of_mem_toDigits {base : Nat} (wide : 1 < base) {c : Char} (n : Nat) :
    c ∈ Nat.toDigits base n → ∃ digit < base, c = Nat.digitChar digit := by
  induction n using Nat.strongRecOn with
  | ind n ih =>
    intro member
    by_cases small : n < base
    · rw [Nat.toDigits_of_lt_base small, List.mem_singleton] at member
      exact ⟨n, small, member⟩
    · rw [Nat.toDigits_of_base_le wide (Nat.le_of_not_lt small), List.mem_append] at member
      rcases member with front | last
      · exact ih (n / base) (Nat.div_lt_self (by omega) wide) front
      · exact ⟨n % base, Nat.mod_lt n (by omega), List.mem_singleton.mp last⟩

theorem lineFeed_notMem_toDigits {base : Nat} (wide : 1 < base) (narrow : base ≤ 16) (n : Nat) :
    '\n' ∉ Nat.toDigits base n := by
  intro member
  obtain ⟨digit, below, same⟩ := exists_digit_of_mem_toDigits wide n member
  exact lineFeed_ne_digitChar digit (by omega) same

@[simp]
theorem Decimal.oneLine_render (n : Int32) : OneLine (Decimal.render n) := by
  have digits := lineFeed_notMem_toDigits (show 1 < 10 by decide) (by decide) n.toInt.natAbs
  rw [OneLine, render, String.toList_ofList, renderChars]
  split_ifs with negative
  · rw [List.mem_cons, not_or]
    exact ⟨by decide, digits⟩
  · exact digits

/-! ## Quoted texts and names with parts -/

theorem Quoted.lineFeed_notMem_escape (c : Char) : '\n' ∉ Quoted.escape c := by
  have digits := lineFeed_notMem_toDigits (show 1 < 16 by decide) (by decide) c.toNat
  unfold Quoted.escape
  split_ifs with null tab carriageReturn lineFeed quotes backslash unprintable
  · simp
  · simp
  · simp
  · simp
  · simp
  · simp
  · simpa [byNumber] using digits
  · rw [List.mem_singleton]
    exact Ne.symm lineFeed

@[simp]
theorem oneLine_quote (text : String) : OneLine (quote text) := by
  rw [OneLine, quote, String.toList_ofList, Quoted.quoteChars]
  simp [Quoted.lineFeed_notMem_escape]

@[simp]
theorem oneLine_applied {name part : String} :
    OneLine (applied name part) ↔ OneLine name ∧ OneLine part := by
  simp [applied, OneLine]

@[simp]
theorem oneLine_quoteOption (text : Option String) : OneLine (quoteOption text) := by
  cases text with
  | none => simp [quoteOption, OneLine]
  | some text =>
    rw [quoteOption, oneLine_applied]
    exact ⟨by simp [OneLine], oneLine_quote text⟩

theorem oneLine_join {texts : List String} :
    OneLine (String.join texts) ↔ ∀ text ∈ texts, OneLine text := by
  simp only [OneLine, String.toList_join, List.mem_flatMap, not_exists, not_and]

theorem oneLine_parts {entries : List (String × String)}
    (lines : ∀ entry ∈ entries, OneLine entry.1 ∧ OneLine entry.2) : OneLine (parts entries) := by
  cases entries with
  | nil => simp [parts, OneLine]
  | cons first rest =>
    obtain ⟨own, later⟩ := List.forall_mem_cons.mp lines
    rw [parts, oneLine_append, oneLine_join]
    refine ⟨?_, ?_⟩
    · simpa [OneLine] using own
    · intro text member
      obtain ⟨entry, among, rfl⟩ := List.mem_map.mp member
      simpa [OneLine] using later entry among

theorem oneLine_labelled {name : String} {entries : List (String × String)} (named : OneLine name)
    (lines : ∀ entry ∈ entries, OneLine entry.1 ∧ OneLine entry.2) :
    OneLine (labelled name entries) := by
  simpa [labelled, OneLine] using And.intro named (oneLine_parts lines)

/-! ## Lines as bytes -/

theorem lineFeed_notMem_encode_iff (text : String) : 0x0A ∉ Utf8.encode text ↔ OneLine text := by
  have low : '\n'.toNat < 0x80 := by decide
  exact not_congr (Utf8.mem_encode_iff low text)

theorem oneLine_lossy {bytes : Bytes} (absent : 0x0A ∉ bytes) : OneLine (Utf8.lossy bytes) := by
  intro member
  have low : '\n'.toNat < 0x80 := by decide
  exact absent (Utf8.mem_of_mem_lossy low member)

end PipeCodec
