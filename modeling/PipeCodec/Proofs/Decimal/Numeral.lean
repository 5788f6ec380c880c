import PipeCodec.Proofs.Decimal

/-!
# Numerals

A numeral is an optional sign and one or more digits, and it denotes a number.  The exact reading
accepts the numerals that denote a word, with leading zeros and a plus sign if they have them.  The
lenient reading takes the nearest word to the number that stands in front.  Among the numerals of a
word one is canonical, with a minus sign only if the word is negative, no plus sign and no leading
zeros, and this is the one that is written.
-/

set_option autoImplicit false

namespace PipeCodec.Decimal

structure IsRun (run : Bytes) : Prop where
  someDigit : run ≠ []
  digits : ∀ byte ∈ run, isDigit byte = true

/-- An optional sign and one or more digits, and the number that they denote. -/
inductive Denotes : Bytes → Int → Prop
  | unsigned {run : Bytes} : IsRun run → Denotes run (magnitude run)
  | plus {run : Bytes} : IsRun run → Denotes (0x2B :: run) (magnitude run)
  | minus {run : Bytes} : IsRun run → Denotes (0x2D :: run) (-(magnitude run : Int))

/-- The number in front: blanks are passed over, then come at most one sign and as many digits as
there are.  Without digits it is zero. -/
def leadingNumber (bytes : Bytes) : Int :=
  let (negative, rest) := takeSign (bytes.dropWhile isSpace)
  signed negative (magnitude (rest.takeWhile isDigit))

theorem readLenient_eq_nearest (bytes : Bytes) :
    readLenient bytes = Int32.ofIntClamp (leadingNumber bytes) :=
  readLenient_eq_clamp bytes

/-! ## What the exact reading accepts -/

theorem takeSign_run {run : Bytes} (isRun : IsRun run) : takeSign run = (false, run) := by
  obtain ⟨byte, rest, rfl⟩ := List.exists_cons_of_ne_nil isRun.someDigit
  exact takeSign_digit rest (isRun.digits byte List.mem_cons_self)

theorem denotes_iff (bytes : Bytes) (value : Int) :
    Denotes bytes value ↔
      IsRun (takeSign bytes).2 ∧ value = signed (takeSign bytes).1 (magnitude (takeSign bytes).2) := by
  constructor
  · intro denoted
    cases denoted with
    | unsigned isRun =>
      rw [takeSign_run isRun]
      exact ⟨isRun, rfl⟩
    | plus isRun => exact ⟨isRun, rfl⟩
    | minus isRun => exact ⟨isRun, rfl⟩
  · rintro ⟨isRun, rfl⟩
    cases bytes with
    | nil => exact absurd rfl isRun.someDigit
    | cons byte rest =>
      rw [takeSign] at isRun ⊢
      split_ifs at isRun ⊢ with minus plus
      · rw [minus]
        exact .minus isRun
      · rw [plus]
        exact .plus isRun
      · exact .unsigned isRun

theorem readExact?_eq_some_iff (bytes : Bytes) (word : Int32) :
    readExact? bytes = some word ↔ Denotes bytes word.toInt := by
  rw [readExact?_eq, denotes_iff]
  constructor
  · intro read
    split_ifs at read with accepted
    obtain ⟨someDigit, digits, least, most⟩ := accepted
    refine ⟨⟨someDigit, List.all_eq_true.mp digits⟩, ?_⟩
    rw [← Option.some.inj read, Int32.toInt_ofInt_of_le least (Int.lt_add_one_of_le most)]
  · rintro ⟨isRun, value⟩
    have least := word.minValue_le_toInt
    have most := word.toInt_le
    rw [value] at least most
    rw [if_pos ⟨isRun.someDigit, List.all_eq_true.mpr isRun.digits, least, most⟩, ← value,
      Int32.ofInt_toInt]

/-! ## The canonical numeral -/

/-- Digits that begin with zero only if that is the only one. -/
structure IsPlain (run : Bytes) : Prop where
  isRun : IsRun run
  leading : run.head? = some 0x30 → run = [0x30]

def Canonical (word : Int32) (numeral : Bytes) : Prop :=
  ∃ run, IsPlain run ∧ magnitude run = word.toInt.natAbs ∧
    numeral = if word < 0 then 0x2D :: run else run

theorem digitBytes_digitValue {byte : UInt8} (digit : isDigit byte = true) :
    digitBytes (digitValue byte) = [byte] := by
  have small := digitValue_lt digit
  rw [isDigit_toNat] at digit
  rw [digitBytes_eq_map, Nat.toDigits_of_lt_base small, List.map_singleton,
    Nat.toNat_digitChar_of_lt_ten small]
  congr 1
  apply Utf8.ofNat_eq_of_toNat
  rw [digitValue]
  omega

/-- Further digits stand behind those of the number so far, unless that is zero. -/
theorem digitBytes_append {run : Bytes} (digits : ∀ byte ∈ run, isDigit byte = true) :
    ∀ value, 0 < value → digitBytes value ++ run = digitBytes (extend value run) := by
  induction run with
  | nil =>
    intro value positive
    exact List.append_nil _
  | cons byte rest ih =>
    intro value positive
    obtain ⟨digit, others⟩ := List.forall_mem_cons.mp digits
    have small := digitValue_lt digit
    have joined : digitBytes value ++ [byte] = digitBytes (value * 10 + digitValue byte) := by
      rw [← digitBytes_digitValue digit, Nat.mul_comm value 10, digitBytes, digitBytes, digitBytes,
        Utf8.encodeChars, Utf8.encodeChars, Utf8.encodeChars, ← List.flatMap_append,
        Nat.toDigits_append_toDigits (by decide) positive small]
    have further := ih others (value * 10 + digitValue byte) (by omega)
    calc digitBytes value ++ byte :: rest
        = digitBytes value ++ [byte] ++ rest := by rw [List.append_assoc, List.singleton_append]
      _ = digitBytes (value * 10 + digitValue byte) ++ rest := by rw [joined]
      _ = digitBytes (extend value (byte :: rest)) := further

theorem IsPlain.eq_digitBytes {run : Bytes} (plain : IsPlain run) :
    run = digitBytes (magnitude run) := by
  obtain ⟨byte, rest, rfl⟩ := List.exists_cons_of_ne_nil plain.isRun.someDigit
  obtain ⟨digit, others⟩ := List.forall_mem_cons.mp plain.isRun.digits
  have first := digitBytes_digitValue digit
  have value : magnitude (byte :: rest) = extend (digitValue byte) rest := by
    rw [magnitude, List.foldl_cons, Nat.zero_mul, Nat.zero_add]
    rfl
  by_cases zero : byte = 0x30
  · have alone := plain.leading (congrArg some zero)
    rw [value, (List.cons.inj alone).2]
    exact first.symm
  · have positive : 0 < digitValue byte := by
      rw [isDigit_toNat] at digit
      rw [digitValue]
      have other : byte.toNat ≠ 0x30 := fun same => zero (UInt8.toNat_inj.mp same)
      omega
    rw [value, ← digitBytes_append others _ positive, first, List.singleton_append]

theorem isPlain_digitBytes (n : Nat) : IsPlain (digitBytes n) := by
  refine ⟨⟨digitBytes_ne_nil n, fun byte member => isDigit_of_mem_digitBytes member⟩, ?_⟩
  intro leading
  obtain ⟨rest, run⟩ := List.head?_eq_some_iff.mp leading
  have digits : ∀ byte ∈ rest, isDigit byte = true := by
    intro byte member
    apply isDigit_of_mem_digitBytes (n := n)
    rw [run]
    exact List.mem_cons_of_mem _ member
  -- The zero adds nothing to the number, so fewer digits would do.
  have bound := magnitude_lt digits
  have same : magnitude rest = n := by
    rw [← magnitude_digitBytes n, run]
    rfl
  have length := congrArg List.length run
  rw [digitBytes_eq_map, List.length_map, List.length_cons] at length
  by_cases alone : rest = []
  · rw [run, alone]
  · have short := Nat.toDigits_length 10 n rest.length (List.length_pos_iff.mpr alone) (same ▸ bound)
    omega

/-- Every word has one canonical numeral, and that is what is written for it. -/
theorem canonical_iff (word : Int32) (numeral : Bytes) :
    Canonical word numeral ↔ numeral = Utf8.encode (render word) := by
  rw [encode_render]
  constructor
  · rintro ⟨run, plain, value, rfl⟩
    rw [plain.eq_digitBytes, value]
  · rintro rfl
    exact ⟨_, isPlain_digitBytes _, magnitude_digitBytes _, rfl⟩

end PipeCodec.Decimal
