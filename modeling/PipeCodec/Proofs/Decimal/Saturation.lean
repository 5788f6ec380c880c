import Mathlib.Data.List.Induction
import PipeCodec.Proofs.Decimal

/-!
# Numbers past the words

Bytes that are read leniently open with blanks, at most one sign and digits, each of them as many as
there are, and the digits denote a number without any bound.  What is read is the nearest word to
that number.  The digits are added up in 64 bits, yet nothing is lost: no turn leaves the range of
the accumulator, its value is that of the digits taken so far, and where it stops before the last
digit the nearest word stays the same.
-/

set_option autoImplicit false

namespace PipeCodec.Decimal

/-- Blank, horizontal tab, line feed, vertical tab, form feed, carriage return. -/
def blankBytes : Bytes :=
  [0x20, 0x09, 0x0A, 0x0B, 0x0C, 0x0D]

/-- Blanks, a sign or none, digits and what stands behind them.  Neither the blanks nor the digits
could go on, and where there is no sign none was left out. -/
structure Opens (bytes blank sign run rest : Bytes) : Prop where
  whole : bytes = blank ++ (sign ++ (run ++ rest))
  blanks : ∀ byte ∈ blank, byte ∈ blankBytes
  behindBlanks : ∀ byte ∈ (sign ++ (run ++ rest)).head?, byte ∉ blankBytes
  oneSign : sign = [] ∨ sign = [0x2B] ∨ sign = [0x2D]
  noSign : sign = [] → ∀ byte ∈ (run ++ rest).head?, byte ≠ 0x2B ∧ byte ≠ 0x2D
  digits : ∀ byte ∈ run, 0x30 ≤ byte ∧ byte ≤ 0x39
  behindDigits : ∀ byte ∈ rest.head?, ¬ (0x30 ≤ byte ∧ byte ≤ 0x39)

/-- The number that a run of digits denotes, the last of them being the units. -/
def decimal (run : Bytes) : Nat :=
  Nat.ofDigits 10 (run.reverse.map fun byte => byte.toNat - 0x30)

def number (sign run : Bytes) : Int :=
  if sign = [0x2D] then -(decimal run : Int) else decimal run

def Fits (value : Int) : Prop :=
  -2 ^ 63 ≤ value ∧ value < 2 ^ 63

theorem isSpace_iff (byte : UInt8) : isSpace byte = true ↔ byte ∈ blankBytes := by
  simp only [isSpace, blankBytes, Bool.or_eq_true, Bool.and_eq_true, beq_iff_eq, decide_eq_true_eq,
    List.mem_cons, List.not_mem_nil, or_false, UInt8.le_iff_toNat_le, ← UInt8.toNat_inj,
    UInt8.reduceToNat]
  omega

theorem isDigit_iff (byte : UInt8) : isDigit byte = true ↔ 0x30 ≤ byte ∧ byte ≤ 0x39 := by
  simp only [isDigit, Bool.and_eq_true, decide_eq_true_eq]

theorem magnitude_eq_decimal (run : Bytes) : magnitude run = decimal run := by
  induction run using List.reverseRecOn with
  | nil => rfl
  | append_singleton run byte ih =>
    have units : decimal (run ++ [byte]) = digitValue byte + 10 * decimal run := by
      rw [decimal, List.reverse_concat, List.map_cons, Nat.ofDigits_cons]
      rfl
    rw [magnitude_concat, units, ih]
    omega

theorem number_eq_signed (sign run : Bytes) :
    number sign run = signed (decide (sign = [0x2D])) (magnitude run) := by
  rw [number, magnitude_eq_decimal, signed]
  simp only [decide_eq_true_eq]

/-! ## How bytes open -/

theorem exists_sign (bytes : Bytes) :
    ∃ sign more, bytes = sign ++ more ∧ (sign = [] ∨ sign = [0x2B] ∨ sign = [0x2D]) ∧
      (sign = [] → ∀ byte ∈ more.head?, byte ≠ 0x2B ∧ byte ≠ 0x2D) := by
  cases bytes with
  | nil => exact ⟨[], [], rfl, Or.inl rfl, fun _ byte first => nomatch first⟩
  | cons first more =>
    by_cases plus : first = 0x2B
    · exact ⟨[0x2B], more, by rw [plus]; rfl, Or.inr (Or.inl rfl), fun none => nomatch none⟩
    · by_cases minus : first = 0x2D
      · exact ⟨[0x2D], more, by rw [minus]; rfl, Or.inr (Or.inr rfl), fun none => nomatch none⟩
      · refine ⟨[], first :: more, rfl, Or.inl rfl, ?_⟩
        rintro - byte ⟨⟩
        exact ⟨plus, minus⟩

theorem exists_opens (bytes : Bytes) :
    ∃ blank sign run rest, Opens bytes blank sign run rest := by
  obtain ⟨sign, more, solid, oneSign, noSign⟩ := exists_sign (bytes.dropWhile isSpace)
  have parted := List.takeWhile_append_dropWhile (p := isDigit) (l := more)
  refine ⟨bytes.takeWhile isSpace, sign, more.takeWhile isDigit, more.dropWhile isDigit, ?_⟩
  constructor
  case whole => rw [parted, ← solid, List.takeWhile_append_dropWhile]
  case blanks =>
    intro byte member
    exact (isSpace_iff byte).mp (List.mem_takeWhile_imp member)
  case behindBlanks =>
    rw [parted, ← solid]
    intro byte first
    rw [← isSpace_iff, eq_false_of_head?_dropWhile first]
    exact Bool.false_ne_true
  case oneSign => exact oneSign
  case noSign =>
    rw [parted]
    exact noSign
  case digits =>
    intro byte member
    exact (isDigit_iff byte).mp (List.mem_takeWhile_imp member)
  case behindDigits =>
    intro byte first
    rw [← isDigit_iff, eq_false_of_head?_dropWhile first]
    exact Bool.false_ne_true

namespace Opens

variable {bytes blank sign run rest : Bytes}

theorem dropWhile_isSpace (opens : Opens bytes blank sign run rest) :
    bytes.dropWhile isSpace = sign ++ (run ++ rest) := by
  have allBlank : ∀ byte ∈ blank, isSpace byte = true := fun byte member =>
    (isSpace_iff byte).mpr (opens.blanks byte member)
  rw [opens.whole, List.dropWhile_append_of_pos allBlank]
  cases solid : sign ++ (run ++ rest) with
  | nil => rfl
  | cons byte more =>
    have other : ¬ isSpace byte = true := by
      rw [isSpace_iff]
      exact opens.behindBlanks byte (congrArg List.head? solid)
    exact List.dropWhile_cons_of_neg other

theorem takeSign_eq (opens : Opens bytes blank sign run rest) :
    takeSign (bytes.dropWhile isSpace) = (decide (sign = [0x2D]), run ++ rest) := by
  rw [opens.dropWhile_isSpace]
  rcases opens.oneSign with none | plus | minus
  · have unsigned := opens.noSign none
    rw [none, List.nil_append]
    cases body : run ++ rest with
    | nil => rfl
    | cons byte more =>
      obtain ⟨notPlus, notMinus⟩ := unsigned byte (congrArg List.head? body)
      rw [takeSign, if_neg notMinus, if_neg notPlus]
      rfl
  · rw [plus]
    rfl
  · rw [minus]
    rfl

theorem isDigit_run (opens : Opens bytes blank sign run rest) :
    ∀ byte ∈ run, isDigit byte = true := fun byte member =>
  (isDigit_iff byte).mpr (opens.digits byte member)

theorem isDigit_behind (opens : Opens bytes blank sign run rest) :
    ∀ byte ∈ rest.head?, isDigit byte = false := by
  intro byte first
  rw [← Bool.not_eq_true, isDigit_iff]
  exact opens.behindDigits byte first

theorem takeWhile_isDigit (opens : Opens bytes blank sign run rest) :
    (run ++ rest).takeWhile isDigit = run := by
  rw [List.takeWhile_append_of_pos opens.isDigit_run]
  cases rest with
  | nil => exact List.append_nil run
  | cons byte more =>
    have other := opens.isDigit_behind byte rfl
    rw [List.takeWhile_cons_of_neg (by simp [other]), List.append_nil]

theorem toInt_readLenient (opens : Opens bytes blank sign run rest) :
    (readLenient bytes).toInt = nearest (number sign run) := by
  rw [readLenient_eq_clamp, opens.takeSign_eq, opens.takeWhile_isDigit, toInt_ofIntClamp_eq,
    number_eq_signed]

theorem readLenient_of_noDigit (opens : Opens bytes blank sign [] rest) :
    readLenient bytes = 0 := by
  apply Int32.toInt.inj
  rw [opens.toInt_readLenient, number]
  split
  · rfl
  · rfl

theorem readLenient_of_halted (opens : Opens bytes blank sign run rest) {final : Tally}
    (reached : Tally.Reaches ⟨0, run ++ rest⟩ final) (halted : final.Halted) :
    readLenient bytes =
      Int32.ofIntClamp (if sign = [0x2D] then -final.value else final.value).toInt := by
  rw [reached.eq_accumulate halted]
  simp only [readLenient, opens.takeSign_eq, decide_eq_true_eq]

end Opens

/-! ## What each turn does -/

theorem Tally.Follows.fits {run rest taken left : Bytes} {tally next : Tally}
    (follows : Follows run rest taken left tally)
    (behind : ∀ byte ∈ rest.head?, isDigit byte = false) (turn : tally.Turn next) :
    ∃ byte more, left = byte :: more ∧ Decimal.Fits (tally.value.toInt * 10) ∧
      Decimal.Fits (tally.value.toInt * 10 + digitValue byte) ∧
      next.value.toInt = tally.value.toInt * 10 + digitValue byte := by
  obtain ⟨byte, more, ahead, digit, further⟩ := follows.turn behind turn
  have small := digitValue_lt digit
  have bounded := follows.bounded
  have value := follows.value
  have after := further.value
  rw [magnitude_concat] at after
  refine ⟨byte, more, ahead, ?_, ?_, ?_⟩
  · rw [Decimal.Fits]
    omega
  · rw [Decimal.Fits]
    omega
  · omega

theorem nearest_of_enough (sign : Bytes) {taken left : Bytes}
    (enough : left = [] ∨ 2147483648 < magnitude taken) :
    nearest (number sign taken) = nearest (number sign (taken ++ left)) := by
  rw [number_eq_signed, number_eq_signed, ← toInt_ofIntClamp_eq, ← toInt_ofIntClamp_eq,
    ofIntClamp_signed_append _ enough]

/-- All bytes open in some way, and what is read is the nearest word to the number in front, or
zero where there are no digits.  The loop over the digits comes to an end.  At every point of it the
value is that of the digits taken so far, and a turn from there leaves 64 bits neither with its
product nor with its sum.  Where the loop ends, the digits that it took have the same nearest word
as all of them. -/
theorem lenient_reading_saturates (bytes : Bytes) :
    (∃ blank sign run rest, Opens bytes blank sign run rest) ∧
    ∀ blank sign run rest, Opens bytes blank sign run rest →
      (readLenient bytes).toInt = nearest (number sign run) ∧
      (run = [] → readLenient bytes = 0) ∧
      (∃ final, Tally.Reaches ⟨0, run ++ rest⟩ final ∧ final.Halted ∧
        final.value = accumulate 0 (run ++ rest) ∧
        readLenient bytes =
          Int32.ofIntClamp (if sign = [0x2D] then -final.value else final.value).toInt) ∧
      ∀ tally, Tally.Reaches ⟨0, run ++ rest⟩ tally →
        ∃ taken left, run = taken ++ left ∧ tally.ahead = left ++ rest ∧
          tally.value.toInt = decimal taken ∧
          (∀ next, tally.Turn next → ∃ byte more, left = byte :: more ∧
            Fits (tally.value.toInt * 10) ∧ Fits (tally.value.toInt * 10 + digitValue byte) ∧
            next.value.toInt = tally.value.toInt * 10 + digitValue byte) ∧
          (tally.Halted → nearest (number sign taken) = nearest (number sign run)) := by
  refine ⟨exists_opens bytes, ?_⟩
  intro blank sign run rest opens
  refine ⟨opens.toInt_readLenient, ?_, ?_, ?_⟩
  · rintro rfl
    exact opens.readLenient_of_noDigit
  · obtain ⟨final, reached, halted⟩ := Tally.exists_halted (run ++ rest) 0
    exact ⟨final, reached, halted, reached.eq_accumulate halted,
      opens.readLenient_of_halted reached halted⟩
  · intro tally reached
    obtain ⟨taken, left, follows⟩ := Tally.Reaches.follows opens.isDigit_behind reached
    refine ⟨taken, left, follows.split, follows.ahead, ?_, ?_, ?_⟩
    · rw [follows.value, magnitude_eq_decimal]
    · intro next turn
      exact follows.fits opens.isDigit_behind turn
    · intro halted
      rw [follows.split]
      exact nearest_of_enough sign (follows.halted opens.isDigit_run halted)

/-- The loop stops past the limit with a digit still ahead, and the least word is read. -/
theorem untaken_digit_does_not_change_the_word :
    (readLenient (Utf8.encode "\t -0021474836490x")).toInt = -2 ^ 31 ∧
      ∃ taken left, Utf8.encode "0021474836490" = taken ++ left ∧ left ≠ [] ∧
        (accumulate 0 (Utf8.encode "0021474836490x")).toInt = decimal taken ∧
        nearest (number [0x2D] taken) = -2 ^ 31 := by
  have opens : Opens (Utf8.encode "\t -0021474836490x") (Utf8.encode "\t ") [0x2D]
      (Utf8.encode "0021474836490") (Utf8.encode "x") := by
    constructor <;> decide +kernel
  obtain ⟨read, -, ⟨final, reached, halted, value, -⟩, each⟩ :=
    (lenient_reading_saturates _).2 _ _ _ _ opens
  obtain ⟨taken, left, split, -, exactly, -, same⟩ := each final reached
  have word : nearest (number [0x2D] (Utf8.encode "0021474836490")) = -2 ^ 31 := by decide +kernel
  have stopped : final.value.toInt = 2147483649 := by
    rw [value]
    decide +kernel
  have number : decimal (Utf8.encode "0021474836490") = 21474836490 := by decide +kernel
  refine ⟨read.trans word, taken, left, split, ?_, ?_, (same halted).trans word⟩
  · rintro rfl
    rw [split, List.append_nil] at number
    omega
  · rw [← exactly, value]
    rfl

end PipeCodec.Decimal
