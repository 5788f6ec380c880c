import PipeCodec.Text.Segment

/-!
# Blanks, words and lines

Blanks are the characters with the White_Space property.  A line is closed by a line feed alone or
by a carriage return and a line feed; a carriage return elsewhere is an ordinary blank within its
line.
-/

set_option autoImplicit false

namespace PipeCodec.Text

def isBlank (c : Char) : Bool :=
  let code := c.toNat
  (0x09 ≤ code && code ≤ 0x0D) || code == 0x20 || code == 0x85 || code == 0xA0 ||
  code == 0x1680 || (0x2000 ≤ code && code ≤ 0x200A) || code == 0x2028 || code == 0x2029 ||
  code == 0x202F || code == 0x205F || code == 0x3000

/-- The text without the blanks around it. -/
def trim (chars : List Char) : List Char :=
  Segment.dropEndWhile isBlank (chars.dropWhile isBlank)

/-- The maximal runs of characters that are not blanks. -/
def words : List Char → List (List Char)
  | [] => []
  | c :: rest =>
    if isBlank c then words rest
    else if rest.head?.all isBlank then [c] :: words rest
    else Segment.extendFirst c (words rest)

/-- Lines without their ends; the end of the last line may be missing. -/
def lines (chars : List Char) : List (List Char) :=
  (Segment.splitAfter '\n' chars).map (Segment.dropLineEnd '\n' '\r')

end PipeCodec.Text
