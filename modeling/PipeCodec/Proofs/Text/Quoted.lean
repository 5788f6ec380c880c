import PipeCodec.Proofs.Text.OneLine

/-!
# Quoted texts end by themselves

A character is spelled in one of three ways: by a letter behind a backslash, by its number in
braces, or by itself.  No spelling begins another, and none begins with a quote.  So a quoted text
and what stands behind it are told from the two together, whatever the text holds.  A run of digits
has no such end of its own; it ends where something else than a digit follows.
-/

set_option autoImplicit false

namespace PipeCodec

/-! ## Runs of digits -/

/-- Two runs end at the same place if neither can be carried on. -/
theorem append_inj_of_runs {α : Type} (holds : α → Prop) {left right rest other : List α}
    (leftRun : ∀ x ∈ left, holds x) (rightRun : ∀ x ∈ right, holds x)
    (ends : ∀ x, rest.head? = some x → ¬ holds x)
    (otherEnds : ∀ x, other.head? = some x → ¬ holds x)
    (same : left ++ rest = right ++ other) : left = right ∧ rest = other := by
  rcases List.append_eq_append_iff.mp same with ⟨more, rfl, rfl⟩ | ⟨more, rfl, rfl⟩
  · cases more with
    | nil => exact ⟨(List.append_nil left).symm, rfl⟩
    | cons x more =>
      have carried := rightRun x (List.mem_append_right left List.mem_cons_self)
      exact absurd carried (ends x rfl)
  · cases more with
    | nil => exact ⟨List.append_nil right, rfl⟩
    | cons x more =>
      have carried := leftRun x (List.mem_append_right right List.mem_cons_self)
      exact absurd carried (otherEnds x rfl)

theorem digitChar_injective : ∀ m < 16, ∀ n < 16, Nat.digitChar m = Nat.digitChar n → m = n := by
  decide

theorem toDigits_injective {base : Nat} (wide : 1 < base) (narrow : base ≤ 16) (m : Nat) :
    ∀ n, Nat.toDigits base m = Nat.toDigits base n → m = n := by
  induction m using Nat.strongRecOn with
  | ind m ih =>
    intro n same
    have alike : m < base ↔ n < base := by
      have bound := Nat.length_toDigits_le_iff wide (n := m) Nat.one_pos
      rw [same, Nat.length_toDigits_le_iff wide Nat.one_pos, Nat.pow_one] at bound
      exact bound.symm
    by_cases small : m < base
    · have otherSmall := alike.mp small
      rw [Nat.toDigits_of_lt_base small, Nat.toDigits_of_lt_base otherSmall] at same
      apply digitChar_injective m (by omega) n (by omega)
      exact (List.cons.inj same).1
    · have large : base ≤ n := Nat.le_of_not_lt (mt alike.mpr small)
      rw [Nat.toDigits_of_base_le wide (Nat.le_of_not_lt small),
        Nat.toDigits_of_base_le wide large] at same
      obtain ⟨front, last⟩ := List.append_inj' same rfl
      have bound : m % base < base := Nat.mod_lt m (by omega)
      have otherBound : n % base < base := Nat.mod_lt n (by omega)
      have quotient := ih (m / base) (Nat.div_lt_self (by omega) wide) (n / base) front
      have remainder : m % base = n % base := by
        apply digitChar_injective _ (by omega) _ (by omega)
        exact (List.cons.inj last).1
      rw [← Nat.div_add_mod m base, ← Nat.div_add_mod n base, quotient, remainder]

theorem closingBrace_notMem_toDigits (n : Nat) : '\x7d' ∉ Nat.toDigits 16 n := by
  have other : ∀ digit < 16, '\x7d' ≠ Nat.digitChar digit := by decide
  intro member
  obtain ⟨digit, below, same⟩ := exists_digit_of_mem_toDigits (by decide) n member
  exact other digit below same

namespace Quoted

/-! ## Spellings -/

def letters : List (Char × Char) :=
  [('\x00', '0'), ('\t', 't'), ('\r', 'r'), ('\n', 'n'), ('"', '"'), ('\\', '\\')]

theorem letters_injective :
    ∀ first ∈ letters, ∀ second ∈ letters, first.2 = second.2 → first.1 = second.1 := by
  decide

theorem letter_ne_u : ∀ entry ∈ letters, entry.2 ≠ 'u' := by
  decide

inductive Spells : Char → List Char → Prop where
  | letter {c letter : Char} (among : (c, letter) ∈ letters) : Spells c ['\\', letter]
  | number (c : Char) : Spells c (byNumber c)
  | itself {c : Char} (noQuote : c ≠ '"') (noBackslash : c ≠ '\\') : Spells c [c]

theorem spells_escape (c : Char) : Spells c (escape c) := by
  unfold escape
  split_ifs with null tab carriageReturn lineFeed quotes backslash unprintable
  · exact .letter (by simp [letters, null])
  · exact .letter (by simp [letters, tab])
  · exact .letter (by simp [letters, carriageReturn])
  · exact .letter (by simp [letters, lineFeed])
  · exact .letter (by simp [letters, quotes])
  · exact .letter (by simp [letters, backslash])
  · exact .number c
  · exact .itself quotes backslash

theorem byNumber_append (c : Char) (rest : List Char) :
    byNumber c ++ rest =
      '\\' :: 'u' :: '\x7b' :: (Nat.toDigits 16 c.toNat ++ '\x7d' :: rest) := by
  simp [byNumber]

theorem byNumber_append_inj {c d : Char} {rest other : List Char}
    (same : byNumber c ++ rest = byNumber d ++ other) : c = d ∧ rest = other := by
  rw [byNumber_append, byNumber_append] at same
  simp only [List.cons.injEq, true_and] at same
  have within : ∀ n : Nat, ∀ x ∈ Nat.toDigits 16 n, x ≠ '\x7d' := by
    rintro n x member rfl
    exact closingBrace_notMem_toDigits n member
  obtain ⟨digits, behind⟩ := append_inj_of_runs (· ≠ '\x7d') (within c.toNat) (within d.toNat)
    (by simp) (by simp) same
  refine ⟨?_, (List.cons.inj behind).2⟩
  apply Char.toNat_inj.mp
  exact toDigits_injective (by decide) (by decide) _ _ digits

/-- No spelling begins another. -/
theorem Spells.append_inj {c d : Char} {spelling otherSpelling rest other : List Char}
    (first : Spells c spelling) (second : Spells d otherSpelling)
    (same : spelling ++ rest = otherSpelling ++ other) : c = d ∧ rest = other := by
  cases first with
  | letter among =>
    cases second with
    | letter otherAmong =>
      simp only [List.cons_append, List.nil_append, List.cons.injEq, true_and] at same
      exact ⟨letters_injective _ among _ otherAmong same.1, same.2⟩
    | number =>
      simp only [byNumber_append, List.cons_append, List.cons.injEq, true_and] at same
      exact absurd same.1 (letter_ne_u _ among)
    | itself noQuote noBackslash => exact absurd (List.cons.inj same).1.symm noBackslash
  | number =>
    cases second with
    | letter otherAmong =>
      simp only [byNumber_append, List.cons_append, List.cons.injEq, true_and] at same
      exact absurd same.1.symm (letter_ne_u _ otherAmong)
    | number => exact byNumber_append_inj same
    | itself noQuote noBackslash => exact absurd (List.cons.inj same).1.symm noBackslash
  | itself noQuote noBackslash =>
    cases second with
    | letter otherAmong => exact absurd (List.cons.inj same).1 noBackslash
    | number => exact absurd (List.cons.inj same).1 noBackslash
    | itself otherNoQuote otherNoBackslash => exact List.cons.inj same

theorem Spells.append_ne_quote {c : Char} {spelling : List Char} (spells : Spells c spelling)
    (rest other : List Char) : spelling ++ rest ≠ '"' :: other := by
  intro same
  cases spells with
  | letter among => exact absurd (List.cons.inj same).1 (by decide)
  | number => exact absurd (List.cons.inj same).1 (by decide)
  | itself noQuote noBackslash => exact noQuote (List.cons.inj same).1

/-! ## Whole texts -/

theorem flatMap_escape_inj (chars : List Char) : ∀ {others rest more : List Char},
    chars.flatMap escape ++ '"' :: rest = others.flatMap escape ++ '"' :: more →
      chars = others ∧ rest = more := by
  induction chars with
  | nil =>
    intro others rest more same
    cases others with
    | nil => exact ⟨rfl, (List.cons.inj same).2⟩
    | cons d others =>
      rw [List.flatMap_cons, List.append_assoc] at same
      exact absurd same.symm ((spells_escape d).append_ne_quote _ _)
  | cons c chars ih =>
    intro others rest more same
    rw [List.flatMap_cons, List.append_assoc] at same
    cases others with
    | nil => exact absurd same ((spells_escape c).append_ne_quote _ _)
    | cons d others =>
      rw [List.flatMap_cons, List.append_assoc] at same
      obtain ⟨sameChar, behind⟩ := (spells_escape c).append_inj (spells_escape d) same
      obtain ⟨sameChars, after⟩ := ih behind
      exact ⟨by rw [sameChar, sameChars], after⟩

end Quoted

/-- A quoted text and what stands behind it are told from the two together. -/
theorem quote_append_inj {text other : String} {rest more : List Char}
    (same : (quote text).toList ++ rest = (quote other).toList ++ more) :
    text = other ∧ rest = more := by
  simp only [quote, String.toList_ofList, Quoted.quoteChars, List.cons_append, List.append_assoc,
    List.nil_append, List.cons.injEq, true_and] at same
  obtain ⟨chars, behind⟩ := Quoted.flatMap_escape_inj text.toList same
  exact ⟨String.toList_inj.mp chars, behind⟩

end PipeCodec
