import LazyLint.Text.Basic

/-!
# Blanks

Which code points count as whitespace when a text is stripped. The zero-width characters U+200B and
U+FEFF do not.
-/

namespace LazyLint

/-- The code points that stripping removes. -/
def CodePoint.isBlank (c : CodePoint) : Bool :=
  let n := c.val
  (9 ≤ n && n ≤ 13) || (0x1C ≤ n && n ≤ 0x20) || n = 0x85 || n = 0xA0 || n = 0x1680 ||
  (0x2000 ≤ n && n ≤ 0x200A) || n = 0x2028 || n = 0x2029 || n = 0x202F || n = 0x205F || n = 0x3000

namespace Text

def stripLeft (t : Text) : Text :=
  t.dropWhile CodePoint.isBlank

def strip (t : Text) : Text :=
  (t.stripLeft.reverse.dropWhile CodePoint.isBlank).reverse

def isAllBlank (t : Text) : Bool :=
  t.all CodePoint.isBlank

end Text

end LazyLint
