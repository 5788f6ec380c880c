import Mathlib.Tactic.SplitIfs
import PipeCodec.Text.Utf8

/-!
# Reading back what was written in UTF-8

Writing a character gives bytes from which reading takes exactly that character, whatever follows.
So every text is read back from its own bytes, and two texts with the same bytes are the same text.
Conversely strict reading accepts no other bytes: what it reads as a text is the written form of
that text.  The comparisons of bytes are first restated for natural numbers, where the arithmetic of
the code points is linear.
-/

set_option autoImplicit false

namespace PipeCodec.Utf8

theorem width_toNat (first : UInt8) : width first =
    if first.toNat < 0x80 then 1
    else if first.toNat < 0xC2 then 0
    else if first.toNat < 0xE0 then 2
    else if first.toNat < 0xF0 then 3
    else if first.toNat < 0xF5 then 4
    else 0 := by
  simp only [width, UInt8.lt_iff_toNat_lt]
  rfl

theorem maySecond_toNat (first second : UInt8) : maySecond first second = true ↔
    2 ≤ width first ∧
    (if first.toNat = 0xE0 then 0xA0 else if first.toNat = 0xF0 then 0x90 else 0x80) ≤
      second.toNat ∧
    second.toNat ≤
      (if first.toNat = 0xED then 0x9F else if first.toNat = 0xF4 then 0x8F else 0xBF) := by
  simp only [maySecond, Bool.and_eq_true, decide_eq_true_eq, beq_iff_eq, UInt8.le_iff_toNat_le,
    ← UInt8.toNat_inj, and_assoc, apply_ite UInt8.toNat, UInt8.reduceToNat]

/-- The byte that carries the six low bits of a number. -/
theorem continuation_byte (n : Nat) :
    (UInt8.ofNat (n % 64 + 128)).toNat = n % 64 + 128 := by
  simp only [UInt8.toNat_ofNat']
  omega

theorem isContinuation_byte (n : Nat) : isContinuation (UInt8.ofNat (n % 64 + 128)) = true := by
  simp only [isContinuation, UInt8.le_iff_toNat_le, Bool.and_eq_true, decide_eq_true_eq,
    continuation_byte, UInt8.reduceToNat]
  omega

theorem payload_byte (n : Nat) : payload (UInt8.ofNat (n % 64 + 128)) = n % 64 := by
  simp only [payload, continuation_byte]
  omega

/-! ## One item at a time -/

theorem scan_one {a : UInt8} (rest : Bytes) (wide : width a = 1) :
    scan (a :: rest) = some (char₁ a) :: scan rest := by
  rw [scan.eq_def]
  simp only [wide, if_true]

theorem scan_two {a b : UInt8} (rest : Bytes) (wide : width a = 2)
    (second : maySecond a b = true) :
    scan (a :: b :: rest) = some (char₂ a b) :: scan rest := by
  rw [scan.eq_def]
  simp [wide, second]

theorem scan_three {a b c : UInt8} (rest : Bytes) (wide : width a = 3)
    (second : maySecond a b = true) (third : isContinuation c = true) :
    scan (a :: b :: c :: rest) = some (char₃ a b c) :: scan rest := by
  rw [scan.eq_def]
  simp [wide, second, third]

theorem scan_four {a b c d : UInt8} (rest : Bytes) (wide : width a = 4)
    (second : maySecond a b = true) (third : isContinuation c = true)
    (fourth : isContinuation d = true) :
    scan (a :: b :: c :: d :: rest) = some (char₄ a b c d) :: scan rest := by
  rw [scan.eq_def]
  simp [wide, second, third, fourth]

/-! ## The four lengths of a character -/

theorem scan_written_one (n : Nat) (rest : Bytes) (high : n ≤ 0x7F) :
    scan (UInt8.ofNat n :: rest) = some (Char.ofNat n) :: scan rest := by
  have first : (UInt8.ofNat n).toNat = n := by
    simp only [UInt8.toNat_ofNat']
    omega
  have wide : width (UInt8.ofNat n) = 1 := by
    rw [width_toNat, first, if_pos (by omega)]
  rw [scan_one rest wide, char₁, first]

theorem scan_written_two (n : Nat) (rest : Bytes) (low : ¬ n ≤ 0x7F) (high : n ≤ 0x7FF) :
    scan (UInt8.ofNat (n / 64 % 32 + 192) :: UInt8.ofNat (n % 64 + 128) :: rest) =
      some (Char.ofNat n) :: scan rest := by
  have first : (UInt8.ofNat (n / 64 % 32 + 192)).toNat = n / 64 + 192 := by
    simp only [UInt8.toNat_ofNat']
    omega
  have wide : width (UInt8.ofNat (n / 64 % 32 + 192)) = 2 := by
    rw [width_toNat, first]
    split_ifs <;> omega
  have second :
      maySecond (UInt8.ofNat (n / 64 % 32 + 192)) (UInt8.ofNat (n % 64 + 128)) = true := by
    rw [maySecond_toNat, wide, first, continuation_byte]
    split_ifs <;> omega
  have value : char₂ (UInt8.ofNat (n / 64 % 32 + 192)) (UInt8.ofNat (n % 64 + 128)) =
      Char.ofNat n := by
    rw [char₂, first, payload_byte]
    exact congrArg Char.ofNat (by omega)
  rw [scan_two rest wide second, value]

theorem scan_written_three (n : Nat) (rest : Bytes) (low : ¬ n ≤ 0x7FF) (high : n ≤ 0xFFFF)
    (valid : n < 0xD800 ∨ 0xDFFF < n) :
    scan (UInt8.ofNat (n / 4096 % 16 + 224) :: UInt8.ofNat (n / 64 % 64 + 128) ::
        UInt8.ofNat (n % 64 + 128) :: rest) = some (Char.ofNat n) :: scan rest := by
  have first : (UInt8.ofNat (n / 4096 % 16 + 224)).toNat = n / 4096 + 224 := by
    simp only [UInt8.toNat_ofNat']
    omega
  have wide : width (UInt8.ofNat (n / 4096 % 16 + 224)) = 3 := by
    rw [width_toNat, first]
    split_ifs <;> omega
  -- The bounds on the second byte rule out overlong forms and surrogates, and `n` is neither.
  have second : maySecond (UInt8.ofNat (n / 4096 % 16 + 224)) (UInt8.ofNat (n / 64 % 64 + 128)) =
      true := by
    rw [maySecond_toNat, wide, first, continuation_byte]
    split_ifs <;> omega
  have value : char₃ (UInt8.ofNat (n / 4096 % 16 + 224)) (UInt8.ofNat (n / 64 % 64 + 128))
      (UInt8.ofNat (n % 64 + 128)) = Char.ofNat n := by
    rw [char₃, first, payload_byte, payload_byte]
    exact congrArg Char.ofNat (by omega)
  rw [scan_three rest wide second (isContinuation_byte _), value]

theorem scan_written_four (n : Nat) (rest : Bytes) (low : ¬ n ≤ 0xFFFF) (high : n < 0x110000) :
    scan (UInt8.ofNat (n / 262144 % 8 + 240) :: UInt8.ofNat (n / 4096 % 64 + 128) ::
        UInt8.ofNat (n / 64 % 64 + 128) :: UInt8.ofNat (n % 64 + 128) :: rest) =
      some (Char.ofNat n) :: scan rest := by
  have first : (UInt8.ofNat (n / 262144 % 8 + 240)).toNat = n / 262144 + 240 := by
    simp only [UInt8.toNat_ofNat']
    omega
  have wide : width (UInt8.ofNat (n / 262144 % 8 + 240)) = 4 := by
    rw [width_toNat, first]
    split_ifs <;> omega
  have second :
      maySecond (UInt8.ofNat (n / 262144 % 8 + 240)) (UInt8.ofNat (n / 4096 % 64 + 128)) = true := by
    rw [maySecond_toNat, wide, first, continuation_byte]
    split_ifs <;> omega
  have value : char₄ (UInt8.ofNat (n / 262144 % 8 + 240)) (UInt8.ofNat (n / 4096 % 64 + 128))
      (UInt8.ofNat (n / 64 % 64 + 128)) (UInt8.ofNat (n % 64 + 128)) = Char.ofNat n := by
    rw [char₄, first, payload_byte, payload_byte, payload_byte]
    exact congrArg Char.ofNat (by omega)
  rw [scan_four rest wide second (isContinuation_byte _) (isContinuation_byte _), value]

/-! ## Whole texts -/

/-- Reading takes back what writing one character put in front. -/
theorem scan_utf8EncodeChar (c : Char) (rest : Bytes) :
    scan (String.utf8EncodeChar c ++ rest) = some c :: scan rest := by
  have valid : c.toNat < 0xD800 ∨ 0xDFFF < c.toNat ∧ c.toNat < 0x110000 := c.valid
  have code : c.val.toNat = c.toNat := rfl
  simp only [String.utf8EncodeChar, code]
  split_ifs with one two three
  · simpa using scan_written_one c.toNat rest one
  · simpa using scan_written_two c.toNat rest one two
  · simpa using scan_written_three c.toNat rest two three (by omega)
  · simpa using scan_written_four c.toNat rest three (by omega)

theorem scan_encodeChars (chars : List Char) : scan (encodeChars chars) = chars.map some := by
  induction chars with
  | nil => rfl
  | cons c rest ih =>
    rw [encodeChars, List.flatMap_cons, scan_utf8EncodeChar, List.map_cons]
    exact congrArg (some c :: ·) ih

theorem collect_map_some (chars : List Char) : collect (chars.map some) = some chars := by
  induction chars with
  | nil => rfl
  | cons c rest ih => simp only [List.map_cons, collect, ih, Option.map_some]

@[simp]
theorem decode?_encode (text : String) : decode? (encode text) = some text := by
  rw [decode?, encode, scan_encodeChars, collect_map_some, Option.map_some, String.ofList_toList]

theorem encode_injective {left right : String} (same : encode left = encode right) :
    left = right := by
  have read := congrArg decode? same
  rw [decode?_encode, decode?_encode] at read
  exact Option.some.inj read

theorem encode_append (left right : String) :
    encode (left ++ right) = encode left ++ encode right := by
  rw [encode, String.toList_append, encodeChars, List.flatMap_append]
  rfl

/-- Lenient reading changes nothing about bytes that are a text. -/
theorem lossy_encode (text : String) : lossy (encode text) = text := by
  rw [lossy, encode, scan_encodeChars, List.map_map]
  exact (congrArg String.ofList (List.map_id text.toList)).trans String.ofList_toList

/-! ## Only written texts are read -/

theorem toNat_ofNat {n : Nat} (valid : n < 0xD800 ∨ 0xDFFF < n ∧ n < 0x110000) :
    (Char.ofNat n).val.toNat = n := by
  have whole : n.isValidChar := valid
  rw [Char.ofNat, dif_pos whole]
  rfl

theorem isContinuation_toNat (byte : UInt8) :
    isContinuation byte = true ↔ 0x80 ≤ byte.toNat ∧ byte.toNat ≤ 0xBF := by
  simp only [isContinuation, Bool.and_eq_true, decide_eq_true_eq, UInt8.le_iff_toNat_le,
    UInt8.reduceToNat]

theorem ofNat_eq_of_toNat {n : Nat} (byte : UInt8) (same : n = byte.toNat) :
    UInt8.ofNat n = byte := by
  rw [same, UInt8.ofNat_toNat]

theorem utf8EncodeChar_char₁ {a : UInt8} (wide : width a = 1) :
    String.utf8EncodeChar (char₁ a) = [a] := by
  have first : a.toNat < 0x80 := by
    rw [width_toNat] at wide
    split_ifs at wide <;> omega
  have code : (char₁ a).val.toNat = a.toNat := toNat_ofNat (by omega)
  simp only [String.utf8EncodeChar, code]
  rw [if_pos (by omega), UInt8.ofNat_toNat]

theorem utf8EncodeChar_char₂ {a b : UInt8} (wide : width a = 2) (second : maySecond a b = true) :
    String.utf8EncodeChar (char₂ a b) = [a, b] := by
  have first : 0xC2 ≤ a.toNat ∧ a.toNat < 0xE0 := by
    rw [width_toNat] at wide
    split_ifs at wide <;> omega
  have next : 0x80 ≤ b.toNat ∧ b.toNat ≤ 0xBF := by
    obtain ⟨-, lower, upper⟩ := (maySecond_toNat a b).mp second
    split_ifs at lower upper <;> omega
  have code : (char₂ a b).val.toNat = a.toNat % 32 * 64 + b.toNat % 64 :=
    toNat_ofNat (by simp only [payload]; omega)
  simp only [String.utf8EncodeChar, code]
  rw [if_neg (by omega), if_pos (by omega), ofNat_eq_of_toNat a (by omega),
    ofNat_eq_of_toNat b (by omega)]

theorem utf8EncodeChar_char₃ {a b c : UInt8} (wide : width a = 3) (second : maySecond a b = true)
    (third : isContinuation c = true) : String.utf8EncodeChar (char₃ a b c) = [a, b, c] := by
  have first : 0xE0 ≤ a.toNat ∧ a.toNat < 0xF0 := by
    rw [width_toNat] at wide
    split_ifs at wide <;> omega
  rw [isContinuation_toNat] at third
  -- The lower bound keeps the code above two bytes, the upper one keeps it off the surrogates.
  have next : 0x80 ≤ b.toNat ∧ b.toNat ≤ 0xBF ∧ (a.toNat = 0xE0 → 0xA0 ≤ b.toNat) ∧
      (a.toNat = 0xED → b.toNat ≤ 0x9F) := by
    obtain ⟨-, lower, upper⟩ := (maySecond_toNat a b).mp second
    split_ifs at lower upper <;> omega
  have code : (char₃ a b c).val.toNat =
      a.toNat % 16 * 4096 + b.toNat % 64 * 64 + c.toNat % 64 :=
    toNat_ofNat (by simp only [payload]; omega)
  simp only [String.utf8EncodeChar, code]
  rw [if_neg (by omega), if_neg (by omega), if_pos (by omega),
    ofNat_eq_of_toNat a (by omega), ofNat_eq_of_toNat b (by omega),
    ofNat_eq_of_toNat c (by omega)]

theorem utf8EncodeChar_char₄ {a b c d : UInt8} (wide : width a = 4)
    (second : maySecond a b = true) (third : isContinuation c = true)
    (fourth : isContinuation d = true) :
    String.utf8EncodeChar (char₄ a b c d) = [a, b, c, d] := by
  have first : 0xF0 ≤ a.toNat ∧ a.toNat < 0xF5 := by
    rw [width_toNat] at wide
    split_ifs at wide <;> omega
  rw [isContinuation_toNat] at third fourth
  have next : 0x80 ≤ b.toNat ∧ b.toNat ≤ 0xBF ∧ (a.toNat = 0xF0 → 0x90 ≤ b.toNat) ∧
      (a.toNat = 0xF4 → b.toNat ≤ 0x8F) := by
    obtain ⟨-, lower, upper⟩ := (maySecond_toNat a b).mp second
    split_ifs at lower upper <;> omega
  have code : (char₄ a b c d).val.toNat =
      a.toNat % 8 * 262144 + b.toNat % 64 * 4096 + c.toNat % 64 * 64 + d.toNat % 64 :=
    toNat_ofNat (by simp only [payload]; omega)
  simp only [String.utf8EncodeChar, code]
  rw [if_neg (by omega), if_neg (by omega), if_neg (by omega),
    ofNat_eq_of_toNat a (by omega), ofNat_eq_of_toNat b (by omega),
    ofNat_eq_of_toNat c (by omega), ofNat_eq_of_toNat d (by omega)]

/-- A first byte that a second one may follow has two, three or four bytes in all. -/
theorem width_eq_four {a b : UInt8} (second : maySecond a b = true) (notTwo : ¬ width a = 2)
    (notThree : ¬ width a = 3) : width a = 4 := by
  have least := ((maySecond_toNat a b).mp second).1
  have most : width a ≤ 4 := by
    rw [width_toNat]
    split_ifs <;> omega
  omega

theorem encodeChars_of_collect_cons {c : Char} {items : List (Option Char)} {rest : Bytes}
    {chars : List Char} (whole : collect (some c :: items) = some chars)
    (behind : ∀ others, collect items = some others → encodeChars others = rest) :
    encodeChars chars = String.utf8EncodeChar c ++ rest := by
  obtain ⟨others, read, rfl⟩ := Option.map_eq_some_iff.mp whole
  rw [← behind others read]
  rfl

theorem encodeChars_of_scan (bytes : Bytes) : ∀ chars : List Char,
    collect (scan bytes) = some chars → encodeChars chars = bytes := by
  fun_induction scan bytes with
  | case1 =>
    intro chars whole
    cases whole
    rfl
  | case2 a rest wide ih =>
    intro chars whole
    rw [encodeChars_of_collect_cons whole ih, utf8EncodeChar_char₁ wide]
    rfl
  | case5 a _ b rest second wide ih =>
    intro chars whole
    rw [encodeChars_of_collect_cons whole ih,
      utf8EncodeChar_char₂ wide (eq_true_of_ne_false second)]
    rfl
  | case8 a _ b second _ c rest third wide ih =>
    intro chars whole
    rw [encodeChars_of_collect_cons whole ih,
      utf8EncodeChar_char₃ wide (eq_true_of_ne_false second) (eq_true_of_ne_false third)]
    rfl
  | case11 a notOne b second notTwo c third notThree d rest fourth ih =>
    intro chars whole
    have wide := width_eq_four (eq_true_of_ne_false second) notTwo notThree
    rw [encodeChars_of_collect_cons whole ih,
      utf8EncodeChar_char₄ wide (eq_true_of_ne_false second) (eq_true_of_ne_false third)
        (eq_true_of_ne_false fourth)]
    rfl
  | case3 | case4 | case6 | case7 | case9 | case10 =>
    intro chars whole
    cases whole

theorem encode_of_decode? {bytes : Bytes} {text : String} (read : decode? bytes = some text) :
    encode text = bytes := by
  obtain ⟨chars, whole, rfl⟩ := Option.map_eq_some_iff.mp read
  rw [encode, String.toList_ofList]
  exact encodeChars_of_scan bytes chars whole

theorem lossy_of_decode? {bytes : Bytes} {text : String} (read : decode? bytes = some text) :
    lossy bytes = text := by
  rw [← encode_of_decode? read, lossy_encode]

/-- A character that lenient reading finds was written somewhere in the bytes. -/
theorem mem_of_mem_scan {c : Char} {byte : UInt8} (part : byte ∈ String.utf8EncodeChar c)
    (bytes : Bytes) : some c ∈ scan bytes → byte ∈ bytes := by
  fun_induction scan bytes with
  | case1 =>
    intro found
    cases found
  | case2 a rest wide ih =>
    intro found
    rcases List.mem_cons.mp found with same | later
    · cases same
      rw [utf8EncodeChar_char₁ wide] at part
      exact List.mem_append_left rest part
    · exact List.mem_cons_of_mem a (ih later)
  | case5 a _ b rest second wide ih =>
    intro found
    rcases List.mem_cons.mp found with same | later
    · cases same
      rw [utf8EncodeChar_char₂ wide (eq_true_of_ne_false second)] at part
      exact List.mem_append_left rest part
    · exact List.mem_append_right [a, b] (ih later)
  | case8 a _ b second _ c' rest third wide ih =>
    intro found
    rcases List.mem_cons.mp found with same | later
    · cases same
      rw [utf8EncodeChar_char₃ wide (eq_true_of_ne_false second)
        (eq_true_of_ne_false third)] at part
      exact List.mem_append_left rest part
    · exact List.mem_append_right [a, b, c'] (ih later)
  | case11 a notOne b second notTwo c' third notThree d rest fourth ih =>
    intro found
    rcases List.mem_cons.mp found with same | later
    · cases same
      have wide := width_eq_four (eq_true_of_ne_false second) notTwo notThree
      rw [utf8EncodeChar_char₄ wide (eq_true_of_ne_false second) (eq_true_of_ne_false third)
        (eq_true_of_ne_false fourth)] at part
      exact List.mem_append_left rest part
    · exact List.mem_append_right [a, b, c', d] (ih later)
  | case4 a notOne b rest second ih =>
    intro found
    have later := (List.mem_cons.mp found).resolve_left nofun
    exact List.mem_cons_of_mem a (ih later)
  | case7 a notOne b second notTwo c' rest third ih =>
    intro found
    have later := (List.mem_cons.mp found).resolve_left nofun
    exact List.mem_append_right [a, b] (ih later)
  | case10 a notOne b second notTwo c' third notThree d rest fourth ih =>
    intro found
    have later := (List.mem_cons.mp found).resolve_left nofun
    exact List.mem_append_right [a, b, c'] (ih later)
  | case3 | case6 | case9 =>
    intro found
    cases List.mem_singleton.mp found

/-! ## One-byte characters -/

theorem utf8EncodeChar_ascii {c : Char} (low : c.toNat < 0x80) :
    String.utf8EncodeChar c = [UInt8.ofNat c.toNat] := by
  have code : c.val.toNat = c.toNat := rfl
  simp only [String.utf8EncodeChar, code]
  rw [if_pos (by omega)]

/-- Characters below the limit of one byte are their own bytes. -/
theorem encodeChars_ascii (chars : List Char) (ascii : ∀ c ∈ chars, c.toNat < 0x80) :
    encodeChars chars = chars.map fun c => UInt8.ofNat c.toNat := by
  induction chars with
  | nil => rfl
  | cons c rest ih =>
    have single := utf8EncodeChar_ascii (ascii c List.mem_cons_self)
    have others := ih fun other member => ascii other (List.mem_cons_of_mem c member)
    rw [encodeChars, List.flatMap_cons, single, List.map_cons]
    exact congrArg (UInt8.ofNat c.toNat :: ·) others

/-- The bytes of longer characters all lie above the one-byte characters. -/
theorem toNat_of_mem_utf8EncodeChar {c : Char} {byte : UInt8}
    (member : byte ∈ String.utf8EncodeChar c) (low : byte.toNat < 0x80) :
    c.toNat = byte.toNat := by
  have code : c.val.toNat = c.toNat := rfl
  simp only [String.utf8EncodeChar, code] at member
  split_ifs at member with one two three
  · rw [List.mem_singleton.mp member, UInt8.toNat_ofNat']
    omega
  all_goals
    simp only [List.mem_cons, List.not_mem_nil, or_false, ← UInt8.toNat_inj, UInt8.toNat_ofNat']
      at member
    omega

theorem mem_encode_iff {c : Char} (low : c.toNat < 0x80) (text : String) :
    UInt8.ofNat c.toNat ∈ encode text ↔ c ∈ text.toList := by
  have byte : (UInt8.ofNat c.toNat).toNat = c.toNat := by
    rw [UInt8.toNat_ofNat']
    omega
  constructor
  · intro member
    obtain ⟨other, among, part⟩ := List.mem_flatMap.mp member
    have same := toNat_of_mem_utf8EncodeChar part (by omega)
    rw [byte] at same
    rw [← Char.ofNat_toNat c, ← same, Char.ofNat_toNat]
    exact among
  · intro among
    refine List.mem_flatMap.mpr ⟨c, among, ?_⟩
    rw [utf8EncodeChar_ascii low]
    exact List.mem_singleton_self _

/-- The replacement character is no one-byte character, so lenient reading adds none of these. -/
theorem mem_of_mem_lossy {c : Char} (low : c.toNat < 0x80) {bytes : Bytes}
    (member : c ∈ (lossy bytes).toList) : UInt8.ofNat c.toNat ∈ bytes := by
  rw [lossy, String.toList_ofList] at member
  obtain ⟨item, among, same⟩ := List.mem_map.mp member
  cases item with
  | none =>
    have high : ¬ replacement.toNat < 0x80 := by decide
    rw [← same] at low
    exact absurd low high
  | some found =>
    have same : found = c := same
    subst same
    apply mem_of_mem_scan _ bytes among
    rw [utf8EncodeChar_ascii low]
    exact List.mem_singleton_self _

end PipeCodec.Utf8
