import PipeCodec.Text.Utf8

/-!
# Decimal numbers

Integers on the wire are signed 32-bit words in base 10.  `render` writes the one canonical form.
There are two readings.  The lenient one skips leading blanks, takes one sign and the digits that
follow, stops at whatever comes next and clamps to the range of the word, so it is total.  The exact
one takes an optional sign and at least one digit, nothing else, and refuses what is out of range.
-/

set_option autoImplicit false

namespace PipeCodec.Decimal

/-- The digits of a number without leading zeros. -/
def digits (n : Nat) : String :=
  String.ofList (Nat.toDigits 10 n)

/-- A minus sign only before negative numbers, no plus sign, no leading zeros. -/
def renderChars (n : Int32) : List Char :=
  if n < 0 then '-' :: Nat.toDigits 10 n.toInt.natAbs else Nat.toDigits 10 n.toInt.natAbs

def render (n : Int32) : String :=
  String.ofList (renderChars n)

/-- Blank, horizontal tab, line feed, vertical tab, form feed, carriage return. -/
def isSpace (byte : UInt8) : Bool :=
  byte == 0x20 || (0x09 ≤ byte && byte ≤ 0x0D)

def isDigit (byte : UInt8) : Bool :=
  0x30 ≤ byte && byte ≤ 0x39

def digitValue (byte : UInt8) : Nat :=
  byte.toNat - 0x30

/-- Whether a minus sign leads, and the bytes after the sign if there is one. -/
def takeSign : Bytes → Bool × Bytes
  | [] => (false, [])
  | byte :: rest =>
    if byte = 0x2D then (true, rest)
    else if byte = 0x2B then (false, rest)
    else (false, byte :: rest)

/-- One more than the largest word: the largest magnitude that can still matter. -/
def magnitudeLimit : Int64 := 2147483648

/-- The value so far, extended by the leading digits.  Reading stops once the limit is passed: the
result is clamped, and further digits could only take it further out of range. -/
def accumulate (value : Int64) : Bytes → Int64
  | [] => value
  | byte :: rest =>
    if isDigit byte then
      let next := value * 10 + Int64.ofNat (digitValue byte)
      if magnitudeLimit < next then next else accumulate next rest
    else value

/-- Leading blanks, one sign and a run of digits; no digits read as zero, and what is out of range
reads as the nearest word. -/
def readLenient (bytes : Bytes) : Int32 :=
  let (negative, rest) := takeSign (bytes.dropWhile isSpace)
  let magnitude := accumulate 0 rest
  Int32.ofIntClamp (if negative then -magnitude else magnitude).toInt

/-- The number that a run of digits denotes. -/
def magnitude (run : Bytes) : Nat :=
  run.foldl (fun value byte => value * 10 + digitValue byte) 0

/-- One optional sign, one or more digits, and a value within the range of the word. -/
def readExact? (bytes : Bytes) : Option Int32 :=
  let (negative, run) := takeSign bytes
  let value : Int := if negative then -(magnitude run : Int) else magnitude run
  if run ≠ [] ∧ run.all isDigit ∧ Int32.minValue.toInt ≤ value ∧ value ≤ Int32.maxValue.toInt then
    some (Int32.ofInt value)
  else none

end PipeCodec.Decimal
