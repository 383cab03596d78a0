import LazyLint.Text.Utf8

/-!
# Line ends

Text that is read from a file has line feeds for line ends: a carriage return, with a line feed after
it or without one, becomes a line feed.
-/

namespace LazyLint.Lines

/-- The characters with all line ends as line feeds. -/
def normalize : List Char → List Char
  | [] => []
  | '\r' :: '\n' :: rest => '\n' :: normalize rest
  | c :: rest => (if c = '\r' then '\n' else c) :: normalize rest

/-- The text of bytes from a file, with U+FFFD for what cannot be decoded. -/
def decode (bytes : List UInt8) : Text :=
  Text.ofChars (normalize (Utf8.decode bytes))

end LazyLint.Lines
