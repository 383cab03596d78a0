/-!
# Text as code points

A specifier is cooked from escapes that may spell a lone surrogate, so the texts of this library
are lists of code points, surrogates included, rather than `String`s. A `String` is read as the
list of its characters; the way back replaces every surrogate, and exists only where a byte
encoding asks for it.
-/

namespace LazyLint

/-- A code point up to U+10FFFF, surrogates included. -/
abbrev CodePoint := Fin 0x110000

/-- There is a code point, so numerals of code points have a meaning. -/
instance codePointCount_neZero : @NeZero Nat (@Zero.ofOfNat0 Nat (instOfNatNat 0)) 0x110000 :=
  ⟨Nat.succ_ne_zero 0x10FFFF⟩

/-- A text is the list of its code points. -/
abbrev Text := List CodePoint

namespace CodePoint

def ofChar (c : Char) : CodePoint :=
  ⟨c.toNat, by
    have h := c.valid
    simp only [Char.toNat, UInt32.isValidChar, Nat.isValidChar] at *
    omega⟩

/-- Surrogates are the code points that no encoding form of Unicode can hold on their own. -/
def isSurrogate (c : CodePoint) : Bool :=
  0xD800 ≤ c.val && c.val ≤ 0xDFFF

/-- The character of a code point; a surrogate, which is no character, becomes a question mark. -/
def toChar (c : CodePoint) : Char :=
  if c.isSurrogate then '?' else Char.ofNat c.val

end CodePoint

namespace Text

def ofString (s : String) : Text :=
  s.toList.map CodePoint.ofChar

def ofChars (cs : List Char) : Text :=
  cs.map CodePoint.ofChar

/-- The characters of a text, each surrogate replaced by a question mark. -/
def toChars (t : Text) : List Char :=
  t.map CodePoint.toChar

/-- The text as a string, each surrogate replaced by a question mark. -/
def toString (t : Text) : String :=
  String.ofList t.toChars

/-- The decimal digits of a natural number. -/
def ofNat (n : Nat) : Text :=
  ofString (Nat.repr n)

/-- The decimal digits of an integer, with a minus sign before a negative one. -/
def ofInt (n : Int) : Text :=
  if n < 0 then ofString "-" ++ ofNat n.natAbs else ofNat n.natAbs

/-- The parts joined with a separator between two of them. -/
def join (sep : Text) : List Text → Text
  | [] => []
  | [t] => t
  | t :: rest => t ++ sep ++ join sep rest

/-- The pieces between the occurrences of a code point; a text without it is one piece. -/
def splitAt (sep : CodePoint) : Text → List Text
  | [] => [[]]
  | c :: rest =>
    if c = sep then [] :: splitAt sep rest
    else
      match splitAt sep rest with
      | [] => [[c]]
      | piece :: pieces => (c :: piece) :: pieces

/-- The list without the repetitions of earlier members. -/
def dedup (ts : List Text) : List Text :=
  ts.foldl (fun seen t => if t ∈ seen then seen else seen ++ [t]) []

end Text

instance : Coe String Text := ⟨Text.ofString⟩

end LazyLint
