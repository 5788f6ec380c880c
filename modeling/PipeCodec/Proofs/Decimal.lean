import Mathlib.Data.List.TakeWhile
import Mathlib.Data.Nat.Digits.Defs
import PipeCodec.Proofs.Decimal.Accumulation
import PipeCodec.Proofs.Text.Utf8

/-!
# The two readings of decimal numbers

The lenient reading adds up its digits in 64 bits and stops once its value is past every word.  It
is shown to be the clamped value of the sign and the leading digits, taken without any bound.  Both
readings then give every word back from its canonical form, whose bytes are digits and at most one
minus sign.  Where the exact reading accepts, the lenient one agrees with it, and the canonical form
of what either reads is no longer than the bytes it was read from, unless these were none.
-/

set_option autoImplicit false

namespace PipeCodec.Decimal

/-! ## Digits -/

theorem not_isSpace_of_isDigit {byte : UInt8} (digit : isDigit byte = true) :
    isSpace byte = false := by
  rw [isDigit_toNat] at digit
  simp only [isSpace, Bool.or_eq_false_iff, Bool.and_eq_false_iff, beq_eq_false_iff_ne,
    decide_eq_false_iff_not, UInt8.le_iff_toNat_le, UInt8.reduceToNat, ne_eq, ← UInt8.toNat_inj]
  omega

/-! ## The lenient reading -/

def signed (negative : Bool) (value : Nat) : Int :=
  if negative then -(value : Int) else value

@[simp]
theorem signed_false (value : Nat) : signed false value = value := rfl

@[simp]
theorem signed_true (value : Nat) : signed true value = -(value : Int) := rfl

theorem toInt_signed (negative : Bool) (reached : Int64) (value : Nat)
    (reachedExact : reached.toInt = value) (small : value ≤ 21474836489) :
    (if negative then -reached else reached).toInt = signed negative value := by
  cases negative with
  | false => exact reachedExact
  | true =>
    have negated : (-(value : Int)).bmod (2 ^ 64) = -value :=
      Int.bmod_eq_of_le (by omega) (by omega)
    rw [signed_true, if_pos rfl, Int64.toInt_neg, reachedExact, negated]

theorem ofIntClamp_below {value : Int} (below : value < -2147483648) :
    Int32.ofIntClamp value = Int32.minValue := by
  have least : Int32.minValue.toInt = -2147483648 := by decide
  rw [Int32.ofIntClamp, dif_neg (by omega)]

theorem ofIntClamp_above {value : Int} (above : 2147483647 < value) :
    Int32.ofIntClamp value = Int32.maxValue := by
  have least : Int32.minValue.toInt = -2147483648 := by decide
  have greatest : Int32.maxValue.toInt = 2147483647 := by decide
  rw [Int32.ofIntClamp, dif_pos (by omega), dif_neg (by omega)]

/-- The nearest number within the range of the word. -/
def nearest (value : Int) : Int :=
  max (-2 ^ 31) (min (2 ^ 31 - 1) value)

theorem toInt_ofIntClamp_eq (value : Int) : (Int32.ofIntClamp value).toInt = nearest value := by
  have least : Int32.minValue.toInt = -2147483648 := by decide
  have greatest : Int32.maxValue.toInt = 2147483647 := by decide
  rw [nearest]
  by_cases below : value < -2147483648
  · rw [ofIntClamp_below below]
    omega
  · by_cases above : 2147483647 < value
    · rw [ofIntClamp_above above]
      omega
    · rw [Int32.toInt_ofIntClamp (by omega) (by omega)]
      omega

/-- Past the limit the magnitude no longer matters. -/
theorem ofIntClamp_signed_past (negative : Bool) {left right : Nat} (leftPast : 2147483648 < left)
    (rightPast : 2147483648 < right) :
    Int32.ofIntClamp (signed negative left) = Int32.ofIntClamp (signed negative right) := by
  cases negative with
  | false =>
    rw [signed_false, signed_false]
    exact (ofIntClamp_above (by omega)).trans (ofIntClamp_above (by omega)).symm
  | true =>
    rw [signed_true, signed_true]
    exact (ofIntClamp_below (by omega)).trans (ofIntClamp_below (by omega)).symm

/-- What was not read of a run does not change the nearest word. -/
theorem ofIntClamp_signed_append (negative : Bool) {taken left : Bytes}
    (enough : left = [] ∨ 2147483648 < magnitude taken) :
    Int32.ofIntClamp (signed negative (magnitude taken)) =
      Int32.ofIntClamp (signed negative (magnitude (taken ++ left))) := by
  rcases enough with rfl | past
  · rw [List.append_nil]
  · have further := le_extend (magnitude taken) left
    rw [← magnitude_append] at further
    exact ofIntClamp_signed_past negative past (Nat.lt_of_lt_of_le past further)

theorem eq_false_of_head?_dropWhile {p : UInt8 → Bool} {bytes : Bytes} {byte : UInt8}
    (first : byte ∈ (bytes.dropWhile p).head?) : p byte = false := by
  have other := List.head?_dropWhile_not p bytes
  rwa [Option.mem_def.mp first] at other

/-- The lenient reading is the nearest word to the number that the sign and the leading digits
denote; that reading stops early never shows. -/
theorem readLenient_eq_clamp (bytes : Bytes) :
    readLenient bytes = Int32.ofIntClamp
      (signed (takeSign (bytes.dropWhile isSpace)).1
        (magnitude ((takeSign (bytes.dropWhile isSpace)).2.takeWhile isDigit))) := by
  rcases shape : takeSign (bytes.dropWhile isSpace) with ⟨negative, rest⟩
  obtain ⟨taken, left, run, exactly, small, enough⟩ :=
    accumulate_run (rest.takeWhile isDigit) (rest.dropWhile isDigit)
      (fun byte member => List.mem_takeWhile_imp member)
      (fun byte first => eq_false_of_head?_dropWhile first)
  rw [List.takeWhile_append_dropWhile] at exactly
  simp only [readLenient, shape]
  rw [toInt_signed negative _ _ exactly small, run]
  exact ofIntClamp_signed_append negative enough

/-! ## The canonical form -/

def digitBytes (n : Nat) : Bytes :=
  Utf8.encodeChars (Nat.toDigits 10 n)

theorem toNat_of_isDigit {c : Char} (digit : c.isDigit = true) :
    0x30 ≤ c.toNat ∧ c.toNat ≤ 0x39 := by
  simpa [Char.isDigit, UInt32.le_iff_toNat_le] using digit

theorem digitBytes_eq_map (n : Nat) :
    digitBytes n = (Nat.toDigits 10 n).map fun c => UInt8.ofNat c.toNat := by
  apply Utf8.encodeChars_ascii
  intro c member
  have digit := toNat_of_isDigit (Nat.isDigit_of_mem_toDigits (by omega) (by omega) member)
  omega

theorem isDigit_of_mem_digitBytes {n : Nat} {byte : UInt8} (member : byte ∈ digitBytes n) :
    isDigit byte = true := by
  rw [digitBytes_eq_map] at member
  obtain ⟨c, among, rfl⟩ := List.mem_map.mp member
  have digit := toNat_of_isDigit (Nat.isDigit_of_mem_toDigits (by omega) (by omega) among)
  rw [isDigit_toNat, UInt8.toNat_ofNat']
  omega

theorem digitBytes_ne_nil (n : Nat) : digitBytes n ≠ [] := by
  rw [digitBytes_eq_map]
  simp [Nat.toDigits_ne_nil]

theorem exists_digitBytes_eq_cons (n : Nat) :
    ∃ byte rest, digitBytes n = byte :: rest ∧ isDigit byte = true := by
  obtain ⟨byte, rest, run⟩ := List.exists_cons_of_ne_nil (digitBytes_ne_nil n)
  refine ⟨byte, rest, run, ?_⟩
  apply isDigit_of_mem_digitBytes
  rw [run]
  exact List.mem_cons_self

theorem extend_map_toNat (chars : List Char) (digits : ∀ c ∈ chars, c.isDigit = true) :
    ∀ value, extend value (chars.map fun c => UInt8.ofNat c.toNat) =
      Nat.ofDigitChars 10 chars value := by
  induction chars with
  | nil => intro value; rfl
  | cons c rest ih =>
    intro value
    have digit := toNat_of_isDigit (digits c List.mem_cons_self)
    have digitExact : digitValue (UInt8.ofNat c.toNat) = c.toNat - '0'.toNat := by
      have zero : '0'.toNat = 0x30 := rfl
      rw [digitValue, UInt8.toNat_ofNat', zero]
      omega
    have further := ih (fun other member => digits other (List.mem_cons_of_mem c member))
      (value * 10 + digitValue (UInt8.ofNat c.toNat))
    rw [Nat.ofDigitChars_cons, ← digitExact, Nat.mul_comm 10 value, ← further]
    rfl

theorem magnitude_digitBytes (n : Nat) : magnitude (digitBytes n) = n := by
  have digits : ∀ c ∈ Nat.toDigits 10 n, c.isDigit = true := fun c member =>
    Nat.isDigit_of_mem_toDigits (by omega) (by omega) member
  have value := extend_map_toNat (Nat.toDigits 10 n) digits 0
  rw [← digitBytes_eq_map, Nat.ofDigitChars_ten_toDigits] at value
  exact value

/-- A minus sign only before negative numbers, then the digits of the magnitude. -/
theorem encode_render (n : Int32) :
    Utf8.encode (render n) =
      if n < 0 then 0x2D :: digitBytes n.toInt.natAbs else digitBytes n.toInt.natAbs := by
  rw [Utf8.encode, render, String.toList_ofList, renderChars]
  split
  · rfl
  · rfl

theorem takeSign_digit {byte : UInt8} (rest : Bytes) (digit : isDigit byte = true) :
    takeSign (byte :: rest) = (false, byte :: rest) := by
  rw [isDigit_toNat] at digit
  have notMinus : byte ≠ 0x2D := by
    rintro rfl
    simp at digit
  have notPlus : byte ≠ 0x2B := by
    rintro rfl
    simp at digit
  rw [takeSign, if_neg notMinus, if_neg notPlus]

theorem takeSign_digitBytes (n : Nat) : takeSign (digitBytes n) = (false, digitBytes n) := by
  obtain ⟨byte, rest, run, digit⟩ := exists_digitBytes_eq_cons n
  rw [run, takeSign_digit rest digit]

/-- The canonical form splits into its sign and its digits. -/
theorem takeSign_encode_render (n : Int32) :
    takeSign (Utf8.encode (render n)) = (decide (n < 0), digitBytes n.toInt.natAbs) := by
  rw [encode_render]
  by_cases negative : n < 0
  · simp only [negative, if_true, decide_true, takeSign]
  · simp only [negative, if_false, decide_false, takeSign_digitBytes]

theorem signed_natAbs (n : Int32) : signed (decide (n < 0)) n.toInt.natAbs = n.toInt := by
  have zero : (0 : Int32).toInt = 0 := rfl
  by_cases negative : n < 0
  · rw [decide_eq_true negative, signed_true]
    rw [Int32.lt_iff_toInt_lt, zero] at negative
    omega
  · rw [decide_eq_false negative, signed_false]
    rw [Int32.lt_iff_toInt_lt, zero] at negative
    omega

theorem dropWhile_isSpace_encode_render (n : Int32) :
    (Utf8.encode (render n)).dropWhile isSpace = Utf8.encode (render n) := by
  rw [encode_render]
  split
  · rw [List.dropWhile_cons_of_neg (by decide)]
  · obtain ⟨byte, rest, run, digit⟩ := exists_digitBytes_eq_cons n.toInt.natAbs
    have notSpace := not_isSpace_of_isDigit digit
    rw [run, List.dropWhile_cons_of_neg (by rw [notSpace]; exact Bool.false_ne_true)]

theorem takeWhile_isDigit_digitBytes (n : Nat) :
    (digitBytes n).takeWhile isDigit = digitBytes n := by
  rw [List.takeWhile_eq_self_iff]
  intro byte member
  exact isDigit_of_mem_digitBytes member

@[simp]
theorem readLenient_encode_render (n : Int32) : readLenient (Utf8.encode (render n)) = n := by
  rw [readLenient_eq_clamp, dropWhile_isSpace_encode_render, takeSign_encode_render,
    takeWhile_isDigit_digitBytes, magnitude_digitBytes, signed_natAbs, Int32.ofIntClamp_toInt]

@[simp]
theorem readExact?_encode_render (n : Int32) : readExact? (Utf8.encode (render n)) = some n := by
  have value : (if decide (n < 0) then -(magnitude (digitBytes n.toInt.natAbs) : Int)
      else magnitude (digitBytes n.toInt.natAbs)) = n.toInt := by
    rw [magnitude_digitBytes]
    exact signed_natAbs n
  have allDigits : (digitBytes n.toInt.natAbs).all isDigit = true := by
    rw [List.all_eq_true]
    intro byte member
    exact isDigit_of_mem_digitBytes member
  simp only [readExact?, takeSign_encode_render, value]
  rw [if_pos ⟨digitBytes_ne_nil _, allDigits, n.minValue_le_toInt, n.toInt_le⟩, Int32.ofInt_toInt]

/-- Every byte of the canonical form is a digit or the minus sign. -/
theorem isDigit_or_minus_of_mem_render {n : Int32} {byte : UInt8}
    (member : byte ∈ Utf8.encode (render n)) : isDigit byte = true ∨ byte = 0x2D := by
  rw [encode_render] at member
  split at member
  · rcases List.mem_cons.mp member with rfl | among
    · exact Or.inr rfl
    · exact Or.inl (isDigit_of_mem_digitBytes among)
  · exact Or.inl (isDigit_of_mem_digitBytes member)

/-! ## The two readings compared -/

theorem ofIntClamp_eq_ofInt {value : Int} (least : Int32.minValue.toInt ≤ value)
    (most : value ≤ Int32.maxValue.toInt) : Int32.ofIntClamp value = Int32.ofInt value := by
  have within : Int32.ofIntLE value least most = Int32.ofIntClamp value :=
    Int32.ofIntLE_eq_ofIntClamp
  rw [← within, Int32.ofIntLE_eq_ofInt]

/-- What the exact reading accepts has no blanks in front. -/
theorem dropWhile_isSpace_of_digits {bytes : Bytes}
    (digits : ∀ byte ∈ (takeSign bytes).2, isDigit byte = true) :
    bytes.dropWhile isSpace = bytes := by
  cases bytes with
  | nil => rfl
  | cons byte rest =>
    have solid : isSpace byte = false := by
      rw [takeSign] at digits
      split_ifs at digits with minus plus
      · rw [minus]
        decide
      · rw [plus]
        decide
      · exact not_isSpace_of_isDigit (digits byte List.mem_cons_self)
    rw [List.dropWhile_cons_of_neg (by simp [solid])]

theorem readExact?_eq (bytes : Bytes) :
    readExact? bytes =
      if (takeSign bytes).2 ≠ [] ∧ (takeSign bytes).2.all isDigit ∧
          Int32.minValue.toInt ≤ signed (takeSign bytes).1 (magnitude (takeSign bytes).2) ∧
          signed (takeSign bytes).1 (magnitude (takeSign bytes).2) ≤ Int32.maxValue.toInt then
        some (Int32.ofInt (signed (takeSign bytes).1 (magnitude (takeSign bytes).2)))
      else none := rfl

theorem readLenient_of_readExact? {bytes : Bytes} {value : Int32}
    (read : readExact? bytes = some value) : readLenient bytes = value := by
  rw [readExact?_eq] at read
  split_ifs at read with accepted
  obtain ⟨someDigit, allDigits, least, most⟩ := accepted
  rw [List.all_eq_true] at allDigits
  rw [readLenient_eq_clamp, dropWhile_isSpace_of_digits allDigits,
    List.takeWhile_eq_self_iff.mpr allDigits, ofIntClamp_eq_ofInt least most]
  exact Option.some.inj read

/-! ## How long the canonical form is -/

theorem extend_lt (run : Bytes) (digits : ∀ byte ∈ run, isDigit byte = true) :
    ∀ value, extend value run < (value + 1) * 10 ^ run.length := by
  induction run with
  | nil =>
    intro value
    simp [extend]
  | cons byte rest ih =>
    intro value
    have small := digitValue_lt (digits byte List.mem_cons_self)
    have further := ih (fun other member => digits other (List.mem_cons_of_mem byte member))
      (value * 10 + digitValue byte)
    have room : value * 10 + digitValue byte + 1 ≤ (value + 1) * 10 := by omega
    calc extend value (byte :: rest)
        = extend (value * 10 + digitValue byte) rest := rfl
      _ < (value * 10 + digitValue byte + 1) * 10 ^ rest.length := further
      _ ≤ (value + 1) * 10 * 10 ^ rest.length := Nat.mul_le_mul_right _ room
      _ = (value + 1) * 10 ^ (byte :: rest).length := by
        rw [List.length_cons, Nat.pow_succ, Nat.mul_assoc, Nat.mul_comm 10]

theorem magnitude_lt {run : Bytes} (digits : ∀ byte ∈ run, isDigit byte = true) :
    magnitude run < 10 ^ run.length := by
  have bound := extend_lt run digits 0
  rwa [Nat.zero_add, Nat.one_mul] at bound

theorem length_encode_render (n : Int32) :
    (Utf8.encode (render n)).length =
      (if n.toInt < 0 then 1 else 0) + (Nat.toDigits 10 n.toInt.natAbs).length := by
  have sign : n < 0 ↔ n.toInt < 0 := Int32.lt_iff_toInt_lt
  rw [encode_render]
  simp only [sign]
  split
  · rw [List.length_cons, digitBytes_eq_map, List.length_map, Nat.add_comm]
  · rw [digitBytes_eq_map, List.length_map, Nat.zero_add]

/-- Clamping never enlarges a number and never changes its sign. -/
theorem toInt_ofIntClamp_between (value : Int) :
    (0 ≤ (Int32.ofIntClamp value).toInt ∧ (Int32.ofIntClamp value).toInt ≤ value) ∨
      (value ≤ (Int32.ofIntClamp value).toInt ∧ (Int32.ofIntClamp value).toInt ≤ 0) := by
  rw [toInt_ofIntClamp_eq, nearest]
  omega

theorem length_render_clamp_le (negative : Bool) {run : Bytes} (someDigit : run ≠ [])
    (digits : ∀ byte ∈ run, isDigit byte = true) :
    (Utf8.encode (render (Int32.ofIntClamp (signed negative (magnitude run))))).length ≤
      negative.toNat + run.length := by
  have small := magnitude_lt digits
  have between := toInt_ofIntClamp_between (signed negative (magnitude run))
  have length := List.length_pos_iff.mpr someDigit
  rw [length_encode_render]
  generalize (Int32.ofIntClamp (signed negative (magnitude run))).toInt = word at between ⊢
  have magnitudeBound : word.natAbs ≤ magnitude run := by
    cases negative <;> simp only [signed_true, signed_false] at between <;> omega
  have digitsBound := Nat.toDigits_length 10 word.natAbs run.length length (by omega)
  cases negative with
  | true =>
    rw [Bool.toNat_true]
    split_ifs <;> omega
  | false =>
    rw [signed_false] at between
    rw [if_neg (by omega), Bool.toNat_false]
    omega

theorem length_takeSign (bytes : Bytes) :
    (takeSign bytes).1.toNat + (takeSign bytes).2.length ≤ bytes.length := by
  cases bytes with
  | nil => simp [takeSign]
  | cons byte rest =>
    rw [takeSign]
    split_ifs with minus plus
    · simp only [Bool.toNat_true, List.length_cons]
      omega
    · simp
    · simp

/-- A number that was read is written in no more bytes than it was read from, or in one. -/
theorem length_render_readLenient (bytes : Bytes) :
    (Utf8.encode (render (readLenient bytes))).length ≤ max 1 bytes.length := by
  rw [readLenient_eq_clamp]
  generalize shape : takeSign (bytes.dropWhile isSpace) = split
  have signBound := length_takeSign (bytes.dropWhile isSpace)
  have blankBound := (List.dropWhile_suffix isSpace (l := bytes)).length_le
  rw [shape] at signBound
  by_cases none : split.2.takeWhile isDigit = []
  · have zero : Int32.ofIntClamp (signed split.1 (magnitude [])) = 0 := by
      cases split.1 <;> decide
    rw [none, zero]
    exact Nat.le_trans (by decide) (Nat.le_max_left 1 _)
  · have bound := length_render_clamp_le split.1 none fun byte member =>
      List.mem_takeWhile_imp member
    have runBound := (List.takeWhile_prefix isDigit (l := split.2)).length_le
    omega

end PipeCodec.Decimal
