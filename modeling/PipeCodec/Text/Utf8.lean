/-!
# UTF-8

Text is a `String`, the wire is a list of bytes.  `encode` writes a text, `scan` reads bytes of any
kind: it yields one item per well-formed character and one `none` per maximal malformed piece, that
is, per longest run of bytes that begins some character but does not complete it, or else per single
byte.  Strict reading (`decode?`) accepts the bytes whose items are all characters; lenient reading
(`lossy`) puts the replacement character in each malformed place.
-/

set_option autoImplicit false

namespace PipeCodec

/-- What is sent, stored and received. -/
abbrev Bytes := List UInt8

namespace Utf8

def encodeChars (chars : List Char) : Bytes :=
  chars.flatMap String.utf8EncodeChar

def encode (text : String) : Bytes :=
  encodeChars text.toList

/-- A byte that can stand third or fourth in a character. -/
def isContinuation (byte : UInt8) : Bool :=
  0x80 ≤ byte && byte ≤ 0xBF

/-- How many bytes a character with this first byte has; zero if there is none. -/
def width (first : UInt8) : Nat :=
  if first < 0x80 then 1
  else if first < 0xC2 then 0
  else if first < 0xE0 then 2
  else if first < 0xF0 then 3
  else if first < 0xF5 then 4
  else 0

/-- Whether `second` may follow `first`.  The narrower ranges after `E0`, `ED`, `F0` and `F4` shut
out overlong forms, surrogates and values past the last code point. -/
def maySecond (first second : UInt8) : Bool :=
  2 ≤ width first &&
  (if first == 0xE0 then 0xA0 else if first == 0xF0 then 0x90 else 0x80) ≤ second &&
  second ≤ (if first == 0xED then 0x9F else if first == 0xF4 then 0x8F else 0xBF)

/-- The six low bits, which a continuation byte contributes. -/
def payload (byte : UInt8) : Nat :=
  byte.toNat % 64

def char₁ (a : UInt8) : Char :=
  Char.ofNat a.toNat

def char₂ (a b : UInt8) : Char :=
  Char.ofNat (a.toNat % 32 * 64 + payload b)

def char₃ (a b c : UInt8) : Char :=
  Char.ofNat (a.toNat % 16 * 4096 + payload b * 64 + payload c)

def char₄ (a b c d : UInt8) : Char :=
  Char.ofNat (a.toNat % 8 * 262144 + payload b * 4096 + payload c * 64 + payload d)

/-- Characters in order, with `none` for each maximal malformed piece. A byte that fails to
continue a character is not lost: it is read again as a first byte. -/
def scan : Bytes → List (Option Char)
  | [] => []
  | a :: rest =>
    if width a = 1 then some (char₁ a) :: scan rest
    else match rest with
      | [] => [none]
      | b :: rest₂ =>
        if maySecond a b = false then none :: scan (b :: rest₂)
        else if width a = 2 then some (char₂ a b) :: scan rest₂
        else match rest₂ with
          | [] => [none]
          | c :: rest₃ =>
            if isContinuation c = false then none :: scan (c :: rest₃)
            else if width a = 3 then some (char₃ a b c) :: scan rest₃
            else match rest₃ with
              | [] => [none]
              | d :: rest₄ =>
                if isContinuation d = false then none :: scan (d :: rest₄)
                else some (char₄ a b c d) :: scan rest₄

/-- All the characters, if every item is one. -/
def collect : List (Option Char) → Option (List Char)
  | [] => some []
  | none :: _ => none
  | some c :: rest => (collect rest).map (c :: ·)

/-- The text that the bytes encode; refused as soon as one piece is malformed. -/
def decode? (bytes : Bytes) : Option String :=
  (collect (scan bytes)).map String.ofList

def replacement : Char := '\uFFFD'

/-- The text of the bytes with the replacement character for each malformed piece. -/
def lossy (bytes : Bytes) : String :=
  String.ofList ((scan bytes).map (·.getD replacement))

end Utf8

end PipeCodec
