import LazyLint.Text.Quoted
import LazyLint.Text.Utf8

/-!
# Texts that have bytes

A text can be encoded unless it holds a surrogate. The first run of surrogates is what an encoder
complains about; a stream that must not fail spells surrogates out instead.
-/

namespace LazyLint.Text

/-- A run of surrogates that cannot be encoded. -/
structure EncodeFault where
  position : Nat
  first : CodePoint
  count : Nat

/-- The first run of surrogates in a text, if there is one. -/
def encodeFault? (t : Text) : Option EncodeFault :=
  let before := t.takeWhile fun c => ! c.isSurrogate
  match t.drop before.length with
  | [] => none
  | c :: rest =>
    some
      { position := before.length
        first := c
        count := 1 + (rest.takeWhile CodePoint.isSurrogate).length }

def EncodeFault.message (f : EncodeFault) : Text :=
  if f.count = 1 then
    "'utf-8' codec can't encode character '\\u" ++ hexDigits 4 f.first.val ++ "' in position " ++
      ofNat f.position ++ ": surrogates not allowed"
  else
    "'utf-8' codec can't encode characters in position " ++ ofNat f.position ++ "-" ++
      ofNat (f.position + f.count - 1) ++ ": surrogates not allowed"

def encode (t : Text) : Except EncodeFault (List UInt8) :=
  match t.encodeFault? with
  | some f => .error f
  | none => .ok (Utf8.encode t.toChars)

/-- The text with surrogates spelled out. -/
def spelledOut (t : Text) : Text :=
  t.flatMap fun c => if c.isSurrogate then "\\u" ++ hexDigits 4 c.val else [c]

end LazyLint.Text
