import LazyLint.Text.Blank

/-!
# Reading integers

Integers are read leniently: blanks around the number, a sign, the mark of the base, single
underscores between digits, and the decimal digits of every script.
-/

namespace LazyLint

/-- The zeros of the scripts that have decimal digits; each is followed by its nine digits. -/
def decimalZeros : List Nat :=
  [0x30, 0x660, 0x6F0, 0x7C0, 0x966, 0x9E6, 0xA66, 0xAE6, 0xB66, 0xBE6, 0xC66, 0xCE6, 0xD66,
   0xDE6, 0xE50, 0xED0, 0xF20, 0x1040, 0x1090, 0x17E0, 0x1810, 0x1946, 0x19D0, 0x1A80, 0x1A90,
   0x1B50, 0x1BB0, 0x1C40, 0x1C50, 0xA620, 0xA8D0, 0xA900, 0xA9D0, 0xA9F0, 0xAA50, 0xABF0, 0xFF10,
   0x104A0, 0x10D30, 0x11066, 0x110F0, 0x11136, 0x111D0, 0x112F0, 0x11450, 0x114D0, 0x11650,
   0x116C0, 0x11730, 0x118E0, 0x11950, 0x11C50, 0x11D50, 0x11DA0, 0x16A60, 0x16AC0, 0x16B50,
   0x1D7CE, 0x1D7D8, 0x1D7E2, 0x1D7EC, 0x1D7F6, 0x1E140, 0x1E2F0, 0x1E950, 0x1FBF0]

/-- The value of a decimal digit of any script. -/
def CodePoint.decimal? (c : CodePoint) : Option Nat :=
  (decimalZeros.find? fun z => z ≤ c.val && c.val ≤ z + 9).map (c.val - ·)

/-- The value of a digit in a base up to thirty-six. -/
def CodePoint.digit? (base : Nat) (c : CodePoint) : Option Nat :=
  let value :=
    if 0x61 ≤ c.val && c.val ≤ 0x7A then some (c.val - 0x57)
    else if 0x41 ≤ c.val && c.val ≤ 0x5A then some (c.val - 0x37)
    else c.decimal?
  value.filter (· < base)

/-- Blanks that may surround a number: the separators among the control characters may not. -/
def CodePoint.isNumberBlank (c : CodePoint) : Bool :=
  c.isBlank && ! (0x1C ≤ c.val && c.val ≤ 0x1F)

namespace Text

/-- The number that digits with single underscores between them spell, after a value read before;
`ready` says that an underscore may stand here. -/
def digits? (base : Nat) : Nat → Bool → Text → Option Nat
  | value, ready, [] => if ready then some value else none
  | value, ready, c :: rest =>
    if c = 0x5F then
      if ready then digits? base value false rest else none
    else
      match c.digit? base with
      | some d => digits? base (value * base + d) true rest
      | none => none

/-- The letter, small, that marks a base after a zero. -/
def markOf? (base : Nat) : Option CodePoint :=
  if base = 16 then some 0x78 else if base = 8 then some 0x6F else if base = 2 then some 0x62
  else none

/-- Past the mark of a base and the underscore that may follow it. -/
def pastMark (base : Nat) (t : Text) : Text :=
  match t, markOf? base with
  | z :: x :: rest, some m =>
    if z = 0x30 && (x = m || x.val + 0x20 = m.val) then
      match rest with
      | c :: more => if c = 0x5F then more else rest
      | [] => rest
    else t
  | _, _ => t

/-- Reading is linear in a base that is a power of two and not so in ten: there, numbers of more digits
than this are refused. -/
def maxDecimalDigits : Nat := 4300

def digitCount (t : Text) : Nat :=
  t.countP (·.decimal?.isSome)

/-- Whether a text has too many digits to be read in a base. -/
def isTooLong (base : Nat) (t : Text) : Bool :=
  base = 10 && maxDecimalDigits < t.digitCount

/-- The integer that a text spells in a base. -/
def int? (base : Nat) (t : Text) : Option Int :=
  let t := t.dropWhile CodePoint.isNumberBlank
  let t := (t.reverse.dropWhile CodePoint.isNumberBlank).reverse
  let magnitude (t : Text) :=
    if isTooLong base t then none else digits? base 0 false (pastMark base t)
  match t with
  | c :: rest =>
    if c = 0x2D then (magnitude rest).map fun n => -(n : Int)
    else if c = 0x2B then (magnitude rest).map Int.ofNat
    else (magnitude t).map Int.ofNat
  | [] => none

end Text

end LazyLint
