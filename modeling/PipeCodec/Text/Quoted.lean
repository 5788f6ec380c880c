import PipeCodec.Text.Unprintable

/-!
# Quoted text

A quoted text stands between double quotes.  Inside, a quote, a backslash, a tab, a line feed, a
carriage return and the null character have two-character escapes, every other unprintable character
is spelled by its code point in braces, and all else stands for itself.
-/

set_option autoImplicit false

namespace PipeCodec.Quoted

/-- The spelling of a character by its code point, in lower-case hexadecimal digits. -/
def byNumber (c : Char) : List Char :=
  ['\\', 'u', '\x7b'] ++ Nat.toDigits 16 c.toNat ++ ['\x7d']

def escape (c : Char) : List Char :=
  if c = '\x00' then ['\\', '0']
  else if c = '\t' then ['\\', 't']
  else if c = '\r' then ['\\', 'r']
  else if c = '\n' then ['\\', 'n']
  else if c = '"' then ['\\', '"']
  else if c = '\\' then ['\\', '\\']
  else if isUnprintable c then byNumber c
  else [c]

def quoteChars (chars : List Char) : List Char :=
  '"' :: (chars.flatMap escape ++ ['"'])

end PipeCodec.Quoted

namespace PipeCodec

def quote (text : String) : String :=
  String.ofList (Quoted.quoteChars text.toList)

end PipeCodec
