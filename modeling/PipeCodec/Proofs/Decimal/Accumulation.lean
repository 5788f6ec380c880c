import Mathlib.Logic.Relation
import PipeCodec.Decimal

/-!
# Digits added up one by one

The lenient reading adds up its digits in 64 bits.  A turn takes one digit, and none is taken once
the value is past every word.  So a turn begins with a value that is not past the limit, one more
digit does not take it out of its range, and at every point the value is exactly the number that the
digits so far denote.  Where no turn can follow, either all digits were taken or the value is past
the limit.
-/

set_option autoImplicit false

namespace PipeCodec.Decimal

/-! ## Digits -/

theorem isDigit_toNat (byte : UInt8) :
    isDigit byte = true ↔ 0x30 ≤ byte.toNat ∧ byte.toNat ≤ 0x39 := by
  simp only [isDigit, Bool.and_eq_true, decide_eq_true_eq, UInt8.le_iff_toNat_le, UInt8.reduceToNat]

theorem digitValue_lt {byte : UInt8} (digit : isDigit byte = true) : digitValue byte < 10 := by
  rw [isDigit_toNat] at digit
  rw [digitValue]
  omega

def extend (value : Nat) (run : Bytes) : Nat :=
  run.foldl (fun value byte => value * 10 + digitValue byte) value

theorem le_extend (value : Nat) (run : Bytes) : value ≤ extend value run := by
  induction run generalizing value with
  | nil => exact Nat.le_refl value
  | cons byte rest ih =>
    have further := ih (value * 10 + digitValue byte)
    have unfolded : extend value (byte :: rest) = extend (value * 10 + digitValue byte) rest := rfl
    omega

theorem magnitude_append (run more : Bytes) :
    magnitude (run ++ more) = extend (magnitude run) more :=
  List.foldl_append

theorem magnitude_concat (run : Bytes) (byte : UInt8) :
    magnitude (run ++ [byte]) = magnitude run * 10 + digitValue byte :=
  magnitude_append run [byte]

/-! ## Turns -/

theorem toInt_magnitudeLimit : magnitudeLimit.toInt = 2147483648 := by decide

/-- One more digit does not leave the range of the accumulator. -/
theorem toInt_nextDigit (value : Int64) (n digit : Nat) (valueExact : value.toInt = n)
    (within : n ≤ 2147483648) (small : digit < 10) :
    (value * 10 + Int64.ofNat digit).toInt = ((n * 10 + digit : Nat) : Int) := by
  have ten : (10 : Int64).toInt = 10 := by decide
  have digitExact : (Int64.ofNat digit).toInt = digit := Int64.toInt_ofNat_of_lt (by omega)
  have product : ((n : Int) * 10).bmod (2 ^ 64) = n * 10 :=
    Int.bmod_eq_of_le (by omega) (by omega)
  rw [Int64.toInt_add, Int64.toInt_mul, ten, valueExact, digitExact, product,
    Int.bmod_eq_of_le (by omega) (by omega)]
  omega

structure Tally where
  value : Int64
  ahead : Bytes

namespace Tally

/-- A turn takes a digit, unless the value is past the limit. -/
inductive Turn : Tally → Tally → Prop
  | digit {value : Int64} {byte : UInt8} {ahead : Bytes} : ¬ magnitudeLimit < value →
    isDigit byte = true →
      Turn ⟨value, byte :: ahead⟩ ⟨value * 10 + Int64.ofNat (digitValue byte), ahead⟩

abbrev Reaches : Tally → Tally → Prop :=
  Relation.ReflTransGen Turn

def Halted (tally : Tally) : Prop :=
  ∀ next, ¬ tally.Turn next

/-- The value that the turns from here on end with. -/
def outcome (tally : Tally) : Int64 :=
  if magnitudeLimit < tally.value then tally.value else accumulate tally.value tally.ahead

theorem Turn.outcome_eq {tally next : Tally} (turn : tally.Turn next) :
    tally.outcome = next.outcome := by
  cases turn with
  | digit within digit =>
    rw [outcome, if_neg within, accumulate, if_pos digit]
    rfl

theorem Reaches.outcome_eq {tally final : Tally} (reached : tally.Reaches final) :
    tally.outcome = final.outcome := by
  induction reached with
  | refl => rfl
  | tail _ turn ih => exact ih.trans turn.outcome_eq

theorem Halted.outcome_eq {tally : Tally} (halted : tally.Halted) :
    tally.outcome = tally.value := by
  obtain ⟨value, ahead⟩ := tally
  by_cases past : magnitudeLimit < value
  · exact if_pos past
  · rw [outcome, if_neg past]
    cases ahead with
    | nil => rfl
    | cons byte ahead =>
      have other : ¬ isDigit byte = true := fun digit => halted _ (.digit past digit)
      rw [accumulate, if_neg other]

theorem exists_halted (ahead : Bytes) : ∀ value : Int64,
    ∃ final, Reaches ⟨value, ahead⟩ final ∧ final.Halted := by
  induction ahead with
  | nil =>
    intro value
    exact ⟨⟨value, []⟩, .refl, fun next turn => nomatch turn⟩
  | cons byte ahead ih =>
    intro value
    by_cases goesOn : ¬ magnitudeLimit < value ∧ isDigit byte = true
    · obtain ⟨final, reached, halted⟩ := ih (value * 10 + Int64.ofNat (digitValue byte))
      exact ⟨final, .head (.digit goesOn.1 goesOn.2) reached, halted⟩
    · refine ⟨⟨value, byte :: ahead⟩, .refl, ?_⟩
      intro next turn
      cases turn with
      | digit within digit => exact goesOn ⟨within, digit⟩

theorem Reaches.eq_accumulate {bytes : Bytes} {final : Tally} (reached : Reaches ⟨0, bytes⟩ final)
    (halted : final.Halted) : final.value = accumulate 0 bytes := by
  have low : ¬ magnitudeLimit < (0 : Int64) := by decide
  rw [← halted.outcome_eq, ← Reaches.outcome_eq reached]
  exact if_neg low

/-! ## The value along a run of digits -/

/-- Inside a run of digits the value is exactly that of the digits taken so far. -/
structure Follows (run rest taken left : Bytes) (tally : Tally) : Prop where
  split : run = taken ++ left
  ahead : tally.ahead = left ++ rest
  value : tally.value.toInt = magnitude taken
  bounded : magnitude taken ≤ 21474836489

section Run

variable {run rest taken left : Bytes} {tally next : Tally}

theorem follows_start (run rest : Bytes) : Follows run rest [] run ⟨0, run ++ rest⟩ :=
  ⟨rfl, rfl, rfl, Nat.zero_le _⟩

theorem Follows.past_iff (follows : Follows run rest taken left tally) :
    magnitudeLimit < tally.value ↔ 2147483648 < magnitude taken := by
  rw [Int64.lt_iff_toInt_lt, toInt_magnitudeLimit, follows.value]
  omega

theorem Follows.turn (follows : Follows run rest taken left tally)
    (behind : ∀ byte ∈ rest.head?, isDigit byte = false) (turn : tally.Turn next) :
    ∃ byte more, left = byte :: more ∧ isDigit byte = true ∧
      Follows run rest (taken ++ [byte]) more next := by
  have within : ¬ 2147483648 < magnitude taken := by
    rw [← follows.past_iff]
    cases turn with
    | digit within _ => exact within
  obtain ⟨split, ahead, value, -⟩ := follows
  cases turn with
  | @digit before byte after _ digit =>
    have small := digitValue_lt digit
    have exactly := toInt_nextDigit before _ _ value (Nat.le_of_not_lt within) small
    cases left with
    | nil =>
      -- The digit would stand behind the run.
      have other := behind byte (congrArg List.head? ahead.symm)
      rw [digit] at other
      cases other
    | cons first more =>
      obtain ⟨rfl, rfl⟩ := List.cons.inj ahead
      refine ⟨byte, more, rfl, digit, ?_, rfl, ?_, ?_⟩
      · rw [split, List.append_assoc, List.singleton_append]
      · rw [magnitude_concat]
        exact exactly
      · rw [magnitude_concat]
        omega

theorem Reaches.follows (behind : ∀ byte ∈ rest.head?, isDigit byte = false)
    (reached : Reaches ⟨0, run ++ rest⟩ tally) :
    ∃ taken left, Follows run rest taken left tally := by
  induction reached with
  | refl => exact ⟨[], run, follows_start run rest⟩
  | tail _ turn ih =>
    obtain ⟨taken, left, follows⟩ := ih
    obtain ⟨byte, more, -, -, further⟩ := follows.turn behind turn
    exact ⟨taken ++ [byte], more, further⟩

theorem Follows.halted (follows : Follows run rest taken left tally)
    (digits : ∀ byte ∈ run, isDigit byte = true) (halted : tally.Halted) :
    left = [] ∨ 2147483648 < magnitude taken := by
  rw [← follows.past_iff]
  obtain ⟨split, ahead, -, -⟩ := follows
  obtain ⟨value, bytes⟩ := tally
  by_cases past : magnitudeLimit < value
  · exact Or.inr past
  · cases left with
    | nil => exact Or.inl rfl
    | cons byte more =>
      have digit : isDigit byte = true := by
        apply digits
        simp [split]
      rw [List.cons_append] at ahead
      subst ahead
      exact absurd (.digit past digit) (halted _)

end Run

end Tally

/-- The loop ends with the exact value of the first digits of the run, which are all of them or
already past the limit. -/
theorem accumulate_run (run rest : Bytes) (digits : ∀ byte ∈ run, isDigit byte = true)
    (behind : ∀ byte ∈ rest.head?, isDigit byte = false) :
    ∃ taken left, run = taken ++ left ∧ (accumulate 0 (run ++ rest)).toInt = magnitude taken ∧
      magnitude taken ≤ 21474836489 ∧ (left = [] ∨ 2147483648 < magnitude taken) := by
  obtain ⟨final, reached, halted⟩ := Tally.exists_halted (run ++ rest) 0
  obtain ⟨taken, left, follows⟩ := Tally.Reaches.follows behind reached
  rw [← reached.eq_accumulate halted]
  exact ⟨taken, left, follows.split, follows.value, follows.bounded,
    follows.halted digits halted⟩

end PipeCodec.Decimal
