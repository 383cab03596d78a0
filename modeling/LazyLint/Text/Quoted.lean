import LazyLint.Text.Printable

/-!
# Quoted text

A text is quoted in messages so that its ends and its invisible characters show: between single
quotes, or between double quotes if it holds a single quote and no double one, with a backslash
before the quote in use and before backslashes, and with the unprintable code points spelled out.
-/

namespace LazyLint.Text

/-- The lowercase hexadecimal digits of a number, at least so many. -/
def hexDigits (width n : Nat) : Text :=
  let digits := Nat.toDigits 16 n
  ofChars (List.replicate (width - digits.length) '0' ++ digits)

/-- A code point as it stands between two quotes. -/
def quotedPoint (quote c : CodePoint) : Text :=
  if c = quote || c = 0x5C then [0x5C, c]
  else if c = 0x09 then "\\t"
  else if c = 0x0A then "\\n"
  else if c = 0x0D then "\\r"
  else if c.isPrintable then [c]
  else if c.val < 0x100 then "\\x" ++ hexDigits 2 c.val
  else if c.val < 0x10000 then "\\u" ++ hexDigits 4 c.val
  else "\\U" ++ hexDigits 8 c.val

/-- The quote that a text is put in. -/
def quoteFor (t : Text) : CodePoint :=
  if t.contains 0x27 && ! t.contains 0x22 then 0x22 else 0x27

def quoted (t : Text) : Text :=
  let q := quoteFor t
  [q] ++ t.flatMap (quotedPoint q) ++ [q]

end LazyLint.Text
